import CellFormula.Number.Layout
import CellFormula.Proofs.Number.Decimal
/-!
# Written numbers read back

The search for the shortest numeral ends at a numeral that rounds to the magnitude it was made for,
at the latest on the finest grid, where the magnitude itself lies. Its positional layout spells a
numeral of the same value.
-/

namespace CellFormula.Number

/-! ## The search -/

theorem nearest_units_pow (i n : Nat) : nearest (units i * Nat.pow 5 n) (Nat.pow 5 n) = i :=
  nearest_units (Nat.pow_pos (by decide)) i

theorem readsBack_fineUnits (i : Nat) : ReadsBack i (fineUnits i) := by
  unfold ReadsBack fineUnits
  -- Any exponent does, and a power of this one is too large to be evaluated.
  generalize 1074 = n
  exact nearest_units_pow i n

theorem readsBack_searchGrids {i w : Nat} (hw : ReadsBack i w) (j : Nat) :
    ReadsBack i ((searchGrids i w j).1 * 10 ^ (searchGrids i w j).2) := by
  induction j with
  | zero => simpa [searchGrids] using hw
  | succ j ih =>
    simp only [searchGrids]
    split
    · rename_i h
      exact h.1
    split
    · rename_i h
      exact h
    · exact ih

theorem nearest_tenths {c j a b n : Nat} (h : a + n = j + b) :
    nearest (c * 10 ^ a * 2 ^ n) (10 ^ b) = nearest (c * 10 ^ j) (Nat.pow 5 n) := by
  refine nearest_eq_nearest (Nat.pow_pos (by decide)) (Nat.pow_pos (by decide)) ?_
  calc c * 10 ^ a * 2 ^ n * 5 ^ n = c * 10 ^ a * (2 * 5) ^ n := by
        rw [Nat.mul_assoc, ← Nat.mul_pow]
    _ = c * 10 ^ (a + n) := by rw [Nat.mul_assoc, Nat.pow_add]
    _ = c * 10 ^ j * 10 ^ b := by rw [h, Nat.mul_assoc, Nat.pow_add]

theorem rounded_onGrid {i : Nat} {found : Nat × Nat} (h : ReadsBack i (found.1 * 10 ^ found.2)) :
    (Decimal.onGrid found).rounded = i := by
  have hplaces : ((found.2 : Int) - 1074).toNat + 1074 =
      found.2 + (-((found.2 : Int) - 1074)).toNat := by omega
  unfold ReadsBack at h
  rw [← h]
  simp only [Decimal.rounded, Decimal.onGrid]
  generalize ((found.2 : Int) - 1074).toNat = a at hplaces ⊢
  generalize (-((found.2 : Int) - 1074)).toNat = b at hplaces ⊢
  generalize 1074 = n at hplaces ⊢
  exact nearest_tenths hplaces

/-- The shortest numeral of a finite magnitude rounds to it. -/
theorem index_shortest {i : Nat} (hi : i < infinity) : (shortest i).index = i := by
  rw [shortest]
  split
  · rename_i hzero
    rw [hzero, Decimal.index, if_pos rfl]
  · rw [Decimal.index_eq, rounded_onGrid (readsBack_searchGrids (readsBack_fineUnits i) _)]
    exact Nat.min_eq_right (Nat.le_of_lt hi)

/-! ## Positional layout -/

theorem isDigit_of_mem_digits {n : Nat} {c : Char} (h : c ∈ Nat.toDigits 10 n) : c.isDigit = true :=
  Nat.isDigit_of_mem_toDigits (by decide) (by decide) h

section Positional
variable {d : Decimal} {n : Nat}

theorem isDigit_of_mem_zeros {c : Char} (hc : c ∈ List.replicate n '0') : c.isDigit = true := by
  rw [List.eq_of_mem_replicate hc]
  rfl

theorem isDigit_of_mem_zeros_append :
    ∀ c ∈ List.replicate n '0' ++ Nat.toDigits 10 d.coefficient, c.isDigit = true :=
  List.forall_mem_append.2 ⟨fun _ => isDigit_of_mem_zeros, fun _ => isDigit_of_mem_digits⟩

theorem isDigit_of_mem_append_zeros :
    ∀ c ∈ Nat.toDigits 10 d.coefficient ++ List.replicate n '0', c.isDigit = true :=
  List.forall_mem_append.2 ⟨fun _ => isDigit_of_mem_digits, fun _ => isDigit_of_mem_zeros⟩

theorem positional_of_nonneg (h : 0 ≤ d.exponent) : d.positional =
    Nat.toDigits 10 d.coefficient ++ List.replicate d.exponent.toNat '0' :=
  if_pos h

/-- As many places stand behind the point as the exponent tells, and in front of it one digit at least,
a zero if need be. -/
theorem positional_of_neg (h : d.exponent < 0) : ∃ ws fs n, d.positional = ws ++ '.' :: fs ∧
    ws ++ fs = List.replicate n '0' ++ Nat.toDigits 10 d.coefficient ∧ ws ≠ [] ∧
    d.exponent = -fs.length ∧ (0 < n → ws.length = 1) := by
  obtain ⟨places, hplaces⟩ : ∃ places, (-d.exponent).toNat = places := ⟨_, rfl⟩
  unfold Decimal.positional
  rw [if_neg (by omega)]
  simp only [hplaces]
  generalize hn : places + 1 - (Nat.toDigits 10 d.coefficient).length = n
  generalize hpadded : List.replicate n '0' ++ Nat.toDigits 10 d.coefficient = padded
  have hlen : padded.length = n + (Nat.toDigits 10 d.coefficient).length := by
    rw [← hpadded, List.length_append, List.length_replicate]
  refine ⟨padded.take (padded.length - places), padded.drop (padded.length - places), n, rfl, ?_⟩
  refine ⟨?_, ?_, ?_, ?_⟩
  · rw [List.take_append_drop]
    exact hpadded.symm
  · rw [← List.length_pos_iff, List.length_take]
    omega
  · rw [List.length_drop]
    omega
  · rw [List.length_take]
    omega

theorem spells_positional (d : Decimal) : ∃ d', Spells d.positional d' ∧ d'.index = d.index := by
  rcases lt_or_ge d.exponent 0 with hneg | hnonneg
  · obtain ⟨ws, fs, n, htext, hdigits, hws, hexp, -⟩ := positional_of_neg hneg
    obtain ⟨hwdigits, hfdigits⟩ : (∀ c ∈ ws, c.isDigit = true) ∧ ∀ c ∈ fs, c.isDigit = true := by
      rw [← List.forall_mem_append, hdigits]
      exact isDigit_of_mem_zeros_append
    have hvalue : digitsValue (ws ++ fs) = d.coefficient := by
      simp [hdigits, digitsValue_append, digitsValue_zeros, digitsValue_toDigits]
    rw [htext]
    refine ⟨_, .fraction hws hwdigits hfdigits, congrArg Decimal.index ?_⟩
    rw [hvalue, ← hexp]
  · rw [positional_of_nonneg hnonneg]
    refine ⟨_, .whole (by simp [Nat.toDigits_ne_nil]) isDigit_of_mem_append_zeros, index_eq_index ?_⟩
    have hzero : (-d.exponent).toNat = 0 := by omega
    simp [digitsValue_append, digitsValue_toDigits, digitsValue_zeros, hzero, Nat.mul_comm]

end Positional

/-- The text of a finite magnitude spells a numeral that rounds to it. -/
theorem spells_shortest {i : Nat} (hi : i < infinity) :
    ∃ d, Spells (shortest i).positional d ∧ d.index = i := by
  obtain ⟨d, hd, h⟩ := spells_positional (shortest i)
  exact ⟨d, hd, h.trans (index_shortest hi)⟩

end CellFormula.Number
