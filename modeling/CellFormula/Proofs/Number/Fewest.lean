import CellFormula.Proofs.Number.Rounding
import CellFormula.Proofs.Number.Shortest
/-!
# The fewest digits

The counts of units that read back as one magnitude have no gaps. So the search ends on the coarsest grid
that has such a count at all, and if a numeral with fewer digits were rounded to the magnitude, then a
power of ten would lie between it and what was found, on a coarser grid still.
-/

namespace CellFormula.Number

/-! ## What reads back -/

theorem Decimal.value_nonneg (d : Decimal) : 0 ≤ d.value := by
  rw [Decimal.value]
  positivity

/-- The value alone decides how a numeral is rounded, and a larger one is not rounded further down. -/
theorem rounded_le_rounded {d d' : Decimal} (h : d.value ≤ d'.value) : d.rounded ≤ d'.rounded := by
  by_contra hlt
  rw [Nat.not_le] at hlt
  have hmid := le_magnitude_add_succ (le_refl d'.rounded)
  rcases lt_rounded_iff.1 hlt with habove | ⟨htie, hodd⟩
  · linarith
  · exact lt_irrefl _ (lt_rounded_iff.2 (.inr ⟨by linarith, hodd⟩) : d'.rounded < d'.rounded)

section ReadsBack
variable {i a b c n j : Nat}

theorem readsBack_iff : ReadsBack i (n * 10 ^ j) ↔ (Decimal.onGrid (n, j)).rounded = i := by
  rw [rounded_onGrid (rfl : ReadsBack _ ((n, j).1 * 10 ^ (n, j).2))]
  rfl

theorem value_onGrid (n j : Nat) : (Decimal.onGrid (n, j)).value = n * 10 ^ j * 10 ^ (-1074 : ℤ) := by
  rw [Decimal.value, Decimal.onGrid, sub_eq_add_neg, zpow_add₀ (by norm_num), zpow_natCast, mul_assoc]

theorem readsBack_iff_units : ReadsBack i n ↔ (Decimal.onGrid (n, 0)).rounded = i := by
  rw [← readsBack_iff, Nat.pow_zero, Nat.mul_one]

theorem rounded_onGrid_le (h : a ≤ b) :
    (Decimal.onGrid (a, 0)).rounded ≤ (Decimal.onGrid (b, 0)).rounded := by
  apply rounded_le_rounded
  rw [value_onGrid, value_onGrid]
  gcongr

/-- What lies between two counts of units that read back does too. -/
theorem ReadsBack.between (ha : ReadsBack i a) (hc : ReadsBack i c) (hab : a ≤ b) (hbc : b ≤ c) :
    ReadsBack i b := by
  rw [readsBack_iff_units] at ha hc ⊢
  exact Nat.le_antisymm (hc ▸ rounded_onGrid_le hbc) (ha ▸ rounded_onGrid_le hab)

theorem ne_zero_of_readsBack (hi : i ≠ 0) (h : ReadsBack i n) : n ≠ 0 := by
  rintro rfl
  have hle := rounded_onGrid_le (Nat.zero_le (fineUnits 0))
  rw [readsBack_iff_units.1 h, readsBack_iff_units.1 (readsBack_fineUnits 0)] at hle
  exact hi (Nat.le_zero.1 hle)

theorem coefficient_ne_zero {d : Decimal} (hi : i ≠ 0) (hd : d.rounded = i) : d.coefficient ≠ 0 := by
  intro hc
  have hle : d.rounded ≤ (Decimal.onGrid (fineUnits 0, 0)).rounded := by
    apply rounded_le_rounded
    rw [Decimal.value, hc, Nat.cast_zero, zero_mul]
    exact Decimal.value_nonneg _
  rw [hd, readsBack_iff_units.1 (readsBack_fineUnits 0)] at hle
  exact hi (Nat.le_zero.1 hle)

/-- What lies between a numeral that is rounded to the magnitude and units that read back does too. -/
theorem readsBack_of_le {d : Decimal} (hd : d.rounded = i) (hn : d.value ≤ (Decimal.onGrid (n, j)).value)
    (hb : ReadsBack i b) (hnb : n * 10 ^ j ≤ b) : ReadsBack i (n * 10 ^ j) := by
  have hunits : (Decimal.onGrid (n * 10 ^ j, 0)).rounded = (Decimal.onGrid (n, j)).rounded :=
    readsBack_iff_units.1 (readsBack_iff.2 rfl)
  have hle := rounded_onGrid_le hnb
  rw [hunits, readsBack_iff_units.1 hb] at hle
  exact readsBack_iff.2 (Nat.le_antisymm hle (hd ▸ rounded_le_rounded hn))

/-- A coefficient of so many digits lies below the power of ten on any grid that is no finer. -/
theorem value_le_ten_pow {d : Decimal} {k : Nat} (hk : d.coefficient < 10 ^ k)
    (hj : d.exponent + 1074 ≤ j) :
    d.value ≤ (Decimal.onGrid (1, k + j)).value := by
  have hten : (1 : ℚ) ≤ 10 := by norm_num
  calc d.value ≤ 10 ^ k * 10 ^ d.exponent := by
        rw [Decimal.value]
        gcongr
        exact_mod_cast hk.le
    _ ≤ 10 ^ k * 10 ^ ((j : ℤ) - 1074) := by
        gcongr
        omega
    _ = (Decimal.onGrid (1, k + j)).value := by
        rw [value_onGrid, sub_eq_add_neg, zpow_add₀ (by norm_num), zpow_natCast, pow_add, Nat.cast_one,
          one_mul, mul_assoc]

end ReadsBack

/-! ## Where the search ends -/

theorem lt_ten_pow_coarsestGrid (w : Nat) : w < 10 ^ coarsestGrid w := by
  have hexp : 28 * (w.log2 + 1) ≤ coarsestGrid w * 93 := by
    unfold coarsestGrid
    omega
  have hpow : (2 ^ (w.log2 + 1)) ^ 93 ≤ (10 ^ coarsestGrid w) ^ 93 :=
    calc (2 ^ (w.log2 + 1)) ^ 93 = (2 ^ 93) ^ (w.log2 + 1) := by
          rw [← Nat.pow_mul, ← Nat.pow_mul, Nat.mul_comm]
      _ ≤ (10 ^ 28) ^ (w.log2 + 1) := Nat.pow_le_pow_left (by norm_num) _
      _ = 10 ^ (28 * (w.log2 + 1)) := (Nat.pow_mul ..).symm
      _ ≤ 10 ^ (coarsestGrid w * 93) := Nat.pow_le_pow_right (by decide) hexp
      _ = (10 ^ coarsestGrid w) ^ 93 := Nat.pow_mul ..
  exact Nat.lt_log2_self.trans_le ((Nat.pow_le_pow_iff_left (by decide)).1 hpow)

section Search
variable {i w n j coarsest : Nat}

theorem searchGrids_snd_le (i w coarsest : Nat) : (searchGrids i w coarsest).2 ≤ coarsest := by
  induction coarsest with
  | zero => exact le_rfl
  | succ coarsest ih =>
    simp only [searchGrids]
    split
    · exact le_rfl
    split
    · exact le_rfl
    · exact ih.trans (Nat.le_succ _)

theorem searchGrids_fst_le (i w coarsest : Nat) :
    (searchGrids i w coarsest).1 ≤ w / 10 ^ (searchGrids i w coarsest).2 + 1 := by
  induction coarsest with
  | zero => simp [searchGrids]
  | succ coarsest ih =>
    simp only [searchGrids, Nat.pow_eq]
    split
    · exact Nat.le_succ _
    split
    · exact le_rfl
    · exact ih

/-- No coarser grid than the one where the search ends has a number that reads back. -/
theorem le_searchGrids (hw : ReadsBack i w) (hj : j ≤ coarsest) (h : ReadsBack i (n * 10 ^ j)) :
    j ≤ (searchGrids i w coarsest).2 := by
  induction coarsest with
  | zero => exact hj
  | succ coarsest ih =>
    simp only [searchGrids, Nat.pow_eq]
    split
    · exact hj
    rename_i hlower
    split
    · exact hj
    rename_i hupper
    refine ih (Nat.le_of_not_lt fun hlt => ?_)
    obtain rfl : j = coarsest + 1 := by omega
    -- The number lies on one side of `w`, and the neighbour of `w` on this side between the two.
    rcases Nat.lt_or_ge (w / 10 ^ (coarsest + 1)) n with hn | hn
    · refine hupper (hw.between h ?_ (Nat.mul_le_mul_right _ hn))
      exact (Nat.lt_mul_of_div_lt (Nat.lt_succ_self _) (Nat.pow_pos (by decide))).le
    · refine hlower ⟨h.between hw (Nat.mul_le_mul_right _ hn) (Nat.div_mul_le_self ..), .inr hupper⟩

/-- A numeral that is rounded to the magnitude has no digits below the grid where the search ends: all
of them are on a grid of the search, and that one is no coarser. -/
theorem exponent_le_searchGrids (hw : ReadsBack i w) {d : Decimal} (hd : d.rounded = i)
    (hc : d.coefficient ≠ 0) (hsmall : ∀ n, ReadsBack i n → n < 10 ^ coarsest) :
    d.exponent + 1074 ≤ (searchGrids i w coarsest).2 := by
  by_cases hexp : d.exponent + 1074 ≤ 0
  · omega
  obtain ⟨j, hj⟩ : ∃ j : Nat, d.exponent = j - 1074 := ⟨(d.exponent + 1074).toNat, by omega⟩
  have hback : ReadsBack i (d.coefficient * 10 ^ j) := by
    rwa [readsBack_iff, Decimal.onGrid, ← hj]
  have hlt : 10 ^ j < 10 ^ coarsest :=
    (Nat.le_mul_of_pos_left _ (Nat.pos_of_ne_zero hc)).trans_lt (hsmall _ hback)
  have hle := le_searchGrids hw ((Nat.pow_lt_pow_iff_right (by decide)).1 hlt).le hback
  omega

variable (hw : ReadsBack i w) (hcoarsest : w < 10 ^ coarsest)
include hw hcoarsest

/-- On the coarsest grid there is nothing to choose but one step. -/
theorem searchGrids_fst_le_one (h : ReadsBack i n) (hn : 10 ^ coarsest ≤ n) :
    (searchGrids i w coarsest).1 ≤ 1 := by
  have hstep : ReadsBack i (1 * 10 ^ coarsest) := by
    rw [Nat.one_mul]
    exact hw.between h hcoarsest.le hn
  have hj := Nat.le_antisymm (searchGrids_snd_le i w coarsest) (le_searchGrids hw le_rfl hstep)
  have hle := searchGrids_fst_le i w coarsest
  rwa [hj, Nat.div_eq_of_lt hcoarsest] at hle

theorem not_ten_dvd_searchGrids (hi : i ≠ 0) : ¬10 ∣ (searchGrids i w coarsest).1 := by
  rintro ⟨n, hn⟩
  have hback := readsBack_searchGrids hw coarsest
  have hne := ne_zero_of_readsBack hi hback
  have hn0 : n ≠ 0 := by
    rintro rfl
    exact hne (by rw [hn, Nat.mul_zero, Nat.zero_mul])
  -- A step of the next grid would do as well.
  have hnext : (searchGrids i w coarsest).1 * 10 ^ (searchGrids i w coarsest).2 =
      n * 10 ^ ((searchGrids i w coarsest).2 + 1) := by
    rw [hn, Nat.pow_succ]
    ring
  rw [hnext] at hback
  rcases Nat.lt_or_ge (searchGrids i w coarsest).2 coarsest with hlt | hge
  · exact (le_searchGrids hw hlt hback).not_gt (Nat.lt_succ_self _)
  · have hle := searchGrids_fst_le i w coarsest
    rw [Nat.le_antisymm (searchGrids_snd_le i w coarsest) hge, Nat.div_eq_of_lt hcoarsest] at hle
    omega

/-- The search ends with no more digits than any numeral has that is rounded to the magnitude. -/
theorem searchGrids_fst_lt {d : Decimal} {k : Nat} (hi : i ≠ 0) (hd : d.rounded = i)
    (hk : d.coefficient < 10 ^ k) : (searchGrids i w coarsest).1 < 10 ^ k := by
  have hc := coefficient_ne_zero hi hd
  have hk0 : k ≠ 0 := by
    rintro rfl
    exact hc (Nat.lt_one_iff.1 hk)
  by_contra hge
  rw [Nat.not_lt] at hge
  have hten : 10 ^ 1 ≤ 10 ^ k := Nat.pow_le_pow_right (by decide) (Nat.pos_of_ne_zero hk0)
  have hsmall : ∀ n, ReadsBack i n → n < 10 ^ coarsest := by
    intro n hn
    by_contra hle
    have hone := searchGrids_fst_le_one hw hcoarsest hn (Nat.not_lt.1 hle)
    omega
  -- A power of ten lies between the numeral and what was found, on a coarser grid than that.
  have hexp := exponent_le_searchGrids hw hd hc hsmall
  have hpower : ReadsBack i (1 * 10 ^ (k + (searchGrids i w coarsest).2)) := by
    refine readsBack_of_le hd (value_le_ten_pow hk hexp) (readsBack_searchGrids hw coarsest) ?_
    rw [Nat.one_mul, Nat.pow_add]
    exact Nat.mul_le_mul_right _ hge
  have hlt := hsmall _ hpower
  rw [Nat.one_mul, Nat.pow_lt_pow_iff_right (by decide)] at hlt
  have hle := le_searchGrids hw hlt.le hpower
  omega

end Search

/-! ## The shortest numeral -/

section Shortest
variable {i : Nat}

theorem coefficient_onGrid (found : Nat × Nat) : (Decimal.onGrid found).coefficient = found.1 := rfl

theorem coefficient_shortest (hi : i ≠ 0) : (shortest i).coefficient =
    (searchGrids i (fineUnits i) (coarsestGrid (fineUnits i))).1 := by
  rw [shortest, if_neg hi, coefficient_onGrid]

theorem not_ten_dvd_shortest (hi : i ≠ 0) : ¬10 ∣ (shortest i).coefficient := by
  have hw := readsBack_fineUnits i
  have hcoarsest := lt_ten_pow_coarsestGrid (fineUnits i)
  rw [coefficient_shortest hi]
  exact not_ten_dvd_searchGrids hw hcoarsest hi

/-- No numeral that is rounded to the magnitude has fewer digits than the shortest one. -/
theorem shortest_coefficient_lt {d : Decimal} {k : Nat} (hi : i ≠ 0) (hd : d.rounded = i)
    (hk : d.coefficient < 10 ^ k) : (shortest i).coefficient < 10 ^ k := by
  have hw := readsBack_fineUnits i
  have hcoarsest := lt_ten_pow_coarsestGrid (fineUnits i)
  rw [coefficient_shortest hi]
  exact searchGrids_fst_lt hw hcoarsest hi hd hk

end Shortest

end CellFormula.Number
