import CellFormula.Number.Grid
import Mathlib
/-!
# Rounding to the grid

Magnitudes grow with their numbers, and `lastBelow` finds the gap between two neighbours that a
count of units lies in. Everything else about rounding follows from `lt_nearest_iff`, which says
which numbers the nearest magnitude lies above: rounding is monotone, it does not depend on how a
quotient is written, and it leaves magnitudes alone.
-/

namespace CellFormula.Number

/-! ## Magnitudes -/

theorem perExponent_eq : perExponent = 2 ^ 52 := rfl

/-- Between two powers of two the magnitudes are evenly spaced. -/
theorem units_eq {s m : Nat} (hs : perExponent ≤ m ∨ s = 0) (hm : m ≤ 2 * perExponent) :
    units (s * perExponent + m) = m * 2 ^ s := by
  have hpos : 0 < perExponent := by decide
  -- The last number of a block is the first of the next one.
  by_cases hlast : m = 2 * perExponent
  · have hshift : (s * perExponent + m) / perExponent - 1 = s + 1 := by
      rw [hlast, ← Nat.add_mul, Nat.mul_div_cancel _ hpos]
      omega
    have hsub : s * perExponent + m - (s + 1) * perExponent = perExponent := by
      rw [hlast, Nat.add_mul]
      omega
    simp only [units, hshift, hsub]
    rw [Nat.shiftLeft_eq, Nat.pow_succ, hlast, Nat.mul_comm 2, Nat.mul_assoc, Nat.mul_comm 2]
  · have hshift : (s * perExponent + m) / perExponent - 1 = s := by
      rw [Nat.mul_comm, Nat.mul_add_div hpos]
      rcases hs with hs | rfl
      · have hq : m / perExponent = 1 := Nat.div_eq_of_lt_le (by omega) (by omega)
        omega
      · have hq : m / perExponent < 2 := Nat.div_lt_of_lt_mul (by omega)
        omega
    simp only [units, hshift, Nat.add_sub_cancel_left, Nat.shiftLeft_eq]

theorem exists_block (i : Nat) : ∃ s m, i = s * perExponent + m ∧ (perExponent ≤ m ∨ s = 0) ∧
    m < 2 * perExponent := by
  have hlt : i % perExponent < perExponent := Nat.mod_lt _ (by decide)
  have hi := Nat.div_add_mod' i perExponent
  cases hq : i / perExponent with
  | zero =>
    rw [hq] at hi
    exact ⟨0, i, by omega, .inr rfl, by omega⟩
  | succ s =>
    rw [hq, Nat.succ_mul] at hi
    exact ⟨s, perExponent + i % perExponent, by omega, .inl (by omega), by omega⟩

theorem units_lt_succ (i : Nat) : units i < units (i + 1) := by
  obtain ⟨s, m, rfl, hs, hm⟩ := exists_block i
  rw [units_eq hs (Nat.le_of_lt hm), Nat.add_assoc, units_eq (hs.imp_left Nat.le_succ_of_le) hm]
  exact Nat.mul_lt_mul_of_pos_right (Nat.lt_succ_self m) (Nat.two_pow_pos s)

theorem strictMono_units : StrictMono units :=
  strictMono_nat_of_lt_succ units_lt_succ

theorem units_zero : units 0 = 0 := by decide

/-! ## The gap around a count of units -/

theorem lastBelow_block {n s : Nat} (hs : n.log2 - 52 = s) :
    (perExponent ≤ n / 2 ^ s ∨ s = 0) ∧ n / 2 ^ s < 2 * perExponent := by
  have hlt : n < 2 ^ (n.log2 + 1) := Nat.lt_log2_self
  by_cases hsmall : n.log2 < 52
  · obtain rfl : s = 0 := by omega
    have hle : 2 ^ (n.log2 + 1) ≤ 2 ^ 52 := Nat.pow_le_pow_right (by decide) hsmall
    rw [perExponent_eq]
    exact ⟨.inr rfl, by omega⟩
  · have hlog : n.log2 = 52 + s := by omega
    have hn : n ≠ 0 := by
      rintro rfl
      exact hsmall (by decide)
    have hge : 2 ^ n.log2 ≤ n := Nat.log2_self_le hn
    rw [hlog, Nat.pow_add] at hge
    rw [hlog, Nat.add_right_comm, Nat.pow_add] at hlt
    exact ⟨.inl ((Nat.le_div_iff_mul_le (Nat.two_pow_pos s)).2 hge),
      (Nat.div_lt_iff_lt_mul (Nat.two_pow_pos s)).2 hlt⟩

theorem lastBelow_eq (n : Nat) :
    lastBelow n = (n.log2 - 52) * perExponent + n / 2 ^ (n.log2 - 52) := by
  simp only [lastBelow, Nat.shiftRight_eq_div_pow]

theorem units_lastBelow_le (n : Nat) : units (lastBelow n) ≤ n := by
  obtain ⟨hs, hm⟩ := lastBelow_block (n := n) rfl
  rw [lastBelow_eq, units_eq hs (Nat.le_of_lt hm)]
  exact Nat.div_mul_le_self _ _

theorem lt_units_lastBelow_succ (n : Nat) : n < units (lastBelow n + 1) := by
  obtain ⟨hs, hm⟩ := lastBelow_block (n := n) rfl
  rw [lastBelow_eq, Nat.add_assoc, units_eq (hs.imp_left Nat.le_succ_of_le) hm]
  exact Nat.lt_mul_of_div_lt (Nat.lt_succ_self _) (Nat.two_pow_pos _)

/-! ## The nearest magnitude -/

variable {a b d d' i j num den : Nat}

theorem twiceMidpoint_lt (h : i < j) : twiceMidpoint i < 2 * units j := by
  have hi := strictMono_units h
  have hsucc := strictMono_units.monotone (Nat.succ_le_of_lt h)
  simp only [twiceMidpoint, Nat.succ_eq_add_one] at hsucc ⊢
  omega

theorem lt_twiceMidpoint (h : i ≤ j) : 2 * units i < twiceMidpoint j := by
  have hi := strictMono_units.monotone h
  have hsucc := units_lt_succ j
  simp only [twiceMidpoint]
  omega

/-- The nearest magnitude lies above the one numbered `j` if the quotient lies above the midpoint
behind it, or on the midpoint with `j` odd. -/
theorem lt_nearest_iff (hden : 0 < den) : j < nearest num den ↔
    twiceMidpoint j * den < 2 * num ∨ (twiceMidpoint j * den = 2 * num ∧ j % 2 = 1) := by
  have hbelow : units (lastBelow (num / den)) * den ≤ num :=
    (Nat.le_div_iff_mul_le hden).1 (units_lastBelow_le _)
  have habove : num < units (lastBelow (num / den) + 1) * den :=
    (Nat.div_lt_iff_lt_mul hden).1 (lt_units_lastBelow_succ _)
  unfold nearest
  -- From here on only the gap matters, not how its lower end was found.
  generalize lastBelow (num / den) = i at hbelow habove
  dsimp only
  rcases Nat.lt_trichotomy j i with hlt | rfl | hgt
  · have hmid : twiceMidpoint j * den < 2 * units i * den :=
      Nat.mul_lt_mul_of_pos_right (twiceMidpoint_lt hlt) hden
    rw [Nat.mul_assoc] at hmid
    split
    · omega
    split <;> omega
  · split
    · omega
    split <;> omega
  · have hmid : 2 * units (i + 1) * den < twiceMidpoint j * den :=
      Nat.mul_lt_mul_of_pos_right (lt_twiceMidpoint hgt) hden
    rw [Nat.mul_assoc] at hmid
    split
    · omega
    split <;> omega

/-- What a midpoint does not exceed, it does not exceed in a larger quotient. -/
theorem cross_mul_le {m : Nat} (hd : 0 < d) (hd' : 0 < d') (h : a * d' ≤ b * d)
    (hm : m * d ≤ 2 * a) : m * d' < 2 * b ∨ (m * d' = 2 * b ∧ m * d = 2 * a) := by
  have hle : m * d' * d ≤ 2 * b * d := by
    calc m * d' * d = m * d * d' := Nat.mul_right_comm ..
      _ ≤ 2 * a * d' := Nat.mul_le_mul_right d' hm
      _ = 2 * (a * d') := Nat.mul_assoc ..
      _ ≤ 2 * (b * d) := Nat.mul_le_mul_left 2 h
      _ = 2 * b * d := (Nat.mul_assoc ..).symm
  rcases Nat.lt_or_eq_of_le (Nat.le_of_mul_le_mul_right hle hd) with hlt | heq
  · exact .inl hlt
  · refine .inr ⟨heq, Nat.le_antisymm hm (Nat.le_of_mul_le_mul_right ?_ hd')⟩
    calc 2 * a * d' = 2 * (a * d') := Nat.mul_assoc ..
      _ ≤ 2 * (b * d) := Nat.mul_le_mul_left 2 h
      _ = 2 * b * d := (Nat.mul_assoc ..).symm
      _ = m * d' * d := by rw [heq]
      _ = m * d * d' := Nat.mul_right_comm ..

/-- Rounding is monotone, however the two quotients are written. -/
theorem nearest_le_nearest (hd : 0 < d) (hd' : 0 < d') (h : a * d' ≤ b * d) :
    nearest a d ≤ nearest b d' := by
  have himp : ∀ j, j < nearest a d → j < nearest b d' := by
    intro j hj
    rw [lt_nearest_iff hd']
    rcases (lt_nearest_iff hd).1 hj with hlt | ⟨heq, hodd⟩
    · refine (cross_mul_le hd hd' h (Nat.le_of_lt hlt)).imp_right ?_
      rintro ⟨-, heq⟩
      exact absurd heq (Nat.ne_of_lt hlt)
    · refine (cross_mul_le hd hd' h (Nat.le_of_eq heq)).imp_right ?_
      rintro ⟨heq', -⟩
      exact ⟨heq', hodd⟩
  exact Nat.le_of_not_lt fun hlt => Nat.lt_irrefl _ (himp _ hlt)

theorem nearest_eq_nearest (hd : 0 < d) (hd' : 0 < d') (h : a * d' = b * d) :
    nearest a d = nearest b d' :=
  Nat.le_antisymm (nearest_le_nearest hd hd' (Nat.le_of_eq h))
    (nearest_le_nearest hd' hd (Nat.le_of_eq h.symm))

theorem nearest_units (hden : 0 < den) (i : Nat) : nearest (units i * den) den = i := by
  have hiff : ∀ j, j < nearest (units i * den) den ↔ j < i := by
    intro j
    rw [lt_nearest_iff hden, ← Nat.mul_assoc]
    constructor
    · intro h
      refine Nat.lt_of_not_le fun hle => ?_
      have hmid := Nat.mul_lt_mul_of_pos_right (lt_twiceMidpoint hle) hden
      omega
    · intro h
      exact .inl (Nat.mul_lt_mul_of_pos_right (twiceMidpoint_lt h) hden)
  exact Nat.le_antisymm (Nat.le_of_not_lt fun h => Nat.lt_irrefl _ ((hiff _).1 h))
    (Nat.le_of_not_lt fun h => Nat.lt_irrefl _ ((hiff _).2 h))

end CellFormula.Number
