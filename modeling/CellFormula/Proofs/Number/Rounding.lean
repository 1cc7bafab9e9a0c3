import CellFormula.Proofs.Number.Bits
import CellFormula.Proofs.Number.Decimal
/-!
# Numerals are rounded correctly

A numeral has an exact value, and so has each magnitude of the grid. `roundsTo_toFloat` says that a
numeral is read as a float whose magnitude no other is closer to, and halfway between two as the one
with the even number.
-/

namespace CellFormula.Number

/-! ## Exact values -/

/-- The exact value of the magnitude numbered `i`. -/
def magnitude (i : Nat) : ℚ := units i / 2 ^ 1074

/-- The exact value of the numeral. -/
def Decimal.value (d : Decimal) : ℚ := d.coefficient * 10 ^ d.exponent

/-- The float is not negative and finite, and its magnitude is the nearest one to the value of the
numeral; if another one is as near, then the float's has the even number. -/
structure Decimal.RoundsTo (d : Decimal) (x : Float) : Prop where
  isFinite : x.isFinite = true
  not_negative : isNegative x = false
  nearest : ∀ j, |d.value - magnitude (Number.index x)| ≤ |d.value - magnitude j|
  even_of_tie : ∀ j, j ≠ Number.index x →
    |d.value - magnitude (Number.index x)| = |d.value - magnitude j| → Number.index x % 2 = 0

theorem strictMono_magnitude : StrictMono magnitude := by
  intro i j hij
  have hunits : (units i : ℚ) < units j := by exact_mod_cast strictMono_units hij
  exact div_lt_div_of_pos_right hunits (by positivity)

theorem magnitude_add_succ (j : Nat) :
    magnitude j + magnitude (j + 1) = twiceMidpoint j / 2 ^ 1074 := by
  rw [magnitude, magnitude, twiceMidpoint, Nat.cast_add, add_div]

/-! ## The nearest magnitude -/

theorem Decimal.value_eq (d : Decimal) :
    d.value = d.coefficient * 10 ^ d.exponent.toNat / 10 ^ (-d.exponent).toNat := by
  have hexp : d.exponent = (d.exponent.toNat : Int) - ((-d.exponent).toNat : Int) := by omega
  rw [value, mul_div_assoc, ← zpow_natCast, ← zpow_natCast, ← zpow_sub₀ (by norm_num), ← hexp]

/-- The exact value, in a unit of any size. -/
theorem Decimal.value_eq_scaled (d : Decimal) (t : Nat) :
    d.value = (d.coefficient * 10 ^ d.exponent.toNat * 2 ^ t : Nat) /
      (10 ^ (-d.exponent).toNat : Nat) / 2 ^ t := by
  rw [d.value_eq]
  push_cast
  field_simp

theorem lt_nearest_iff_div {num den j : Nat} (hden : 0 < den) (t : Nat) : j < nearest num den ↔
    (twiceMidpoint j / 2 ^ t : ℚ) < 2 * (num / den / 2 ^ t) ∨
      ((twiceMidpoint j / 2 ^ t : ℚ) = 2 * (num / den / 2 ^ t) ∧ j % 2 = 1) := by
  have hden' : (0 : ℚ) < den := Nat.cast_pos.2 hden
  have hone : (0 : ℚ) < 2 ^ t := by positivity
  rw [lt_nearest_iff hden, ← mul_div_assoc, div_lt_div_iff_of_pos_right hone,
    div_left_inj' hone.ne', ← mul_div_assoc, lt_div_iff₀ hden', eq_div_iff hden'.ne']
  norm_cast

/-- `lt_nearest_iff` for numerals, in exact values. -/
theorem lt_rounded_iff {d : Decimal} {j : Nat} : j < d.rounded ↔
    magnitude j + magnitude (j + 1) < 2 * d.value ∨
      (magnitude j + magnitude (j + 1) = 2 * d.value ∧ j % 2 = 1) := by
  rw [Decimal.rounded, lt_nearest_iff_div (Nat.pow_pos (by decide)) 1074, magnitude_add_succ,
    d.value_eq_scaled 1074]

theorem magnitude_add_succ_le {d : Decimal} {j : Nat} (h : j < d.rounded) :
    magnitude j + magnitude (j + 1) ≤ 2 * d.value := by
  rcases lt_rounded_iff.1 h with hlt | ⟨heq, -⟩
  · exact hlt.le
  · exact heq.le

theorem le_magnitude_add_succ {d : Decimal} {j : Nat} (h : d.rounded ≤ j) :
    2 * d.value ≤ magnitude j + magnitude (j + 1) :=
  not_lt.1 fun hlt => h.not_gt (lt_rounded_iff.2 (.inl hlt))

/-- A magnitude on one side of the rounded one is no closer, and as close only halfway and where the
rounded one has the even number. -/
theorem abs_sub_rounded {d : Decimal} {j : Nat} (hj : j ≠ d.rounded) :
    |d.value - magnitude d.rounded| ≤ |d.value - magnitude j| ∧
      (|d.value - magnitude d.rounded| = |d.value - magnitude j| → d.rounded % 2 = 0) := by
  rcases Nat.lt_or_gt_of_ne hj with hlt | hgt
  · -- The midpoint in front of the rounded magnitude is not above the value.
    obtain ⟨i, hi⟩ := Nat.exists_eq_succ_of_ne_zero (Nat.ne_zero_of_lt hlt)
    have hmid : magnitude i + magnitude d.rounded ≤ 2 * d.value :=
      hi ▸ magnitude_add_succ_le (d := d) (j := i) (by omega)
    have hle : magnitude j ≤ magnitude i := strictMono_magnitude.monotone (by omega)
    have hstep : magnitude i < magnitude d.rounded := strictMono_magnitude (by omega)
    have hpos : 0 ≤ d.value - magnitude j := by linarith
    rw [abs_of_nonneg hpos]
    refine ⟨abs_le.2 ⟨by linarith, by linarith⟩, fun htie => ?_⟩
    rcases abs_choice (d.value - magnitude d.rounded) with habs | habs
    · linarith
    · rcases lt_rounded_iff.1 (show i < d.rounded by omega) with hlt' | ⟨-, hodd⟩
      · rw [← Nat.succ_eq_add_one, ← hi] at hlt'
        linarith
      · omega
  · -- The midpoint behind it is not below the value.
    have hmid := le_magnitude_add_succ (le_refl d.rounded)
    have hle : magnitude (d.rounded + 1) ≤ magnitude j := strictMono_magnitude.monotone hgt
    have hstep : magnitude d.rounded < magnitude (d.rounded + 1) :=
      strictMono_magnitude (Nat.lt_succ_self _)
    have hneg : d.value - magnitude j ≤ 0 := by linarith
    rw [abs_of_nonpos hneg]
    refine ⟨abs_le.2 ⟨by linarith, by linarith⟩, fun htie => ?_⟩
    rcases abs_choice (d.value - magnitude d.rounded) with habs | habs
    · by_contra hodd
      exact lt_irrefl _ (lt_rounded_iff.2 (.inr ⟨by linarith, by omega⟩) : d.rounded < d.rounded)
    · linarith

/-- A numeral below infinity is read as the nearest float. -/
theorem roundsTo_toFloat {d : Decimal} (h : d.isFinite = true) : d.RoundsTo (d.toFloat false) := by
  have hlt : d.index < infinity := of_decide_eq_true h
  have hrounded : d.index = d.rounded := by
    have hmin := d.index_eq
    omega
  have hindex : index (d.toFloat false) = d.rounded := by
    rw [← hrounded]
    exact index_ofIndex (Nat.le_of_lt hlt)
  constructor
  · rwa [isFinite_iff, hindex, ← hrounded]
  · exact isNegative_ofIndex (Nat.le_of_lt hlt)
  · intro j
    rw [hindex]
    rcases eq_or_ne j d.rounded with rfl | hj
    · exact le_refl _
    · exact (abs_sub_rounded hj).1
  · intro j hj htie
    rw [hindex] at hj htie ⊢
    exact (abs_sub_rounded hj).2 htie

/-- A numeral rounds to no other magnitude: of two that are nearest both numbers would be even, and then
one between them is nearer. -/
theorem Decimal.RoundsTo.index_eq {d : Decimal} {x : Float} (h : d.RoundsTo x) :
    Number.index x = d.rounded := by
  by_contra hne
  have htie := le_antisymm (h.nearest d.rounded) (abs_sub_rounded hne).1
  have heven := (abs_sub_rounded hne).2 htie.symm
  have heven' := h.even_of_tie _ (Ne.symm hne) htie
  rcases Nat.lt_or_gt_of_ne hne with hlt | hgt
  · have hmid : magnitude (Number.index x + 1) + magnitude (Number.index x + 2) ≤ 2 * d.value :=
      magnitude_add_succ_le (by omega)
    have hstep := strictMono_magnitude (Nat.lt_succ_self (Number.index x))
    have hstep' := strictMono_magnitude (Nat.lt_succ_self (Number.index x + 1))
    have hnear := h.nearest (Number.index x + 1)
    rw [abs_of_nonneg (by linarith), abs_of_nonneg (by linarith)] at hnear
    linarith
  · obtain ⟨i, hi⟩ : ∃ i, Number.index x = i + 1 := Nat.exists_eq_succ_of_ne_zero (by omega)
    have hmid := le_magnitude_add_succ (le_refl d.rounded)
    have hle : magnitude (d.rounded + 1) ≤ magnitude i := strictMono_magnitude.monotone (by omega)
    have hstep := strictMono_magnitude (Nat.lt_succ_self d.rounded)
    have hstep' := strictMono_magnitude (Nat.lt_succ_self i)
    have hnear := h.nearest i
    rw [hi, abs_of_nonpos (by linarith), abs_of_nonpos (by linarith)] at hnear
    linarith

theorem Decimal.RoundsTo.index_lt {d : Decimal} {x : Float} (h : d.RoundsTo x) :
    d.index < infinity := by
  have hlt := isFinite_iff.1 h.isFinite
  rw [h.index_eq] at hlt
  rw [d.index_eq]
  omega

/-- The reader finds the number that a numeral rounds to. -/
theorem Decimal.RoundsTo.eq_toFloat {d : Decimal} {x : Float} (h : d.RoundsTo x) :
    x = d.toFloat false := by
  have hlt := isFinite_iff.1 h.isFinite
  have hindex : d.index = Number.index x := by
    rw [d.index_eq, ← h.index_eq]
    omega
  rw [Decimal.toFloat, hindex, ← h.not_negative, ofIndex_index]

theorem isFinite_toFloat {d : Decimal} {negative : Bool} :
    (d.toFloat negative).isFinite = true ↔ d.index < infinity := by
  have hle : d.index ≤ infinity := by
    rw [d.index_eq]
    omega
  rw [isFinite_iff, Decimal.toFloat, index_ofIndex hle]

end CellFormula.Number
