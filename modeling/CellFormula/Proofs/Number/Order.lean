import CellFormula.Proofs.Number.Bits
import CellFormula.Proofs.Number.Grid
/-!
# The order of floats

The logic compares floats by their signs, exponents and mantissas. `rank` is the number of a float's
magnitude with the sign in front of it, and floats other than NaN compare exactly as their ranks do, so
they are in one line but for the two zeros, which have one rank. NaN compares with nothing.
-/

namespace CellFormula.Number

open Float.Model (Format UnpackedFloat)
open Float.Model.UnpackedFloat

/-! ## Parts of a float -/

/-- The sign of a float whose sign bit is set or not. -/
def signOf (negative : Bool) : Sign :=
  if negative then .negative else .positive

/-- What the logic takes a float apart into, by its sign and number. -/
inductive Unpacks (negative : Bool) (i : Nat) : UnpackedFloat → Prop
  | nan : infinity < i → Unpacks negative i .notANumber
  | infinity : i = infinity → Unpacks negative i (.infinity (signOf negative))
  | zero : i = 0 → Unpacks negative i (.zero (signOf negative))
  | finite {s m : Nat} {e : Int} (h : 0 < m) : i < Number.infinity → i = s * perExponent + m →
      (perExponent ≤ m ∨ s = 0) → m < 2 * perExponent → e = s - 1074 →
      Unpacks negative i (.finite (signOf negative) m e h)

section Fields
variable (b : BitVec Format.binary64.numBits)

theorem toNat_unpackExponent : (unpackExponent b).toNat = b.toNat % signBit / perExponent := by
  simp [unpackExponent, BitVec.extractLsb_toNat, Nat.shiftRight_eq_div_pow, signBit, perExponent]
  omega

theorem toNat_unpackMantissa : (unpackMantissa b).toNat = b.toNat % signBit % perExponent := by
  simp [unpackMantissa, BitVec.extractLsb_toNat, signBit, perExponent]

theorem ofBitVec_unpackSign :
    Sign.ofBitVec (unpackSign b) = signOf (decide (signBit ≤ b.toNat)) := by
  have hlt : b.toNat < 2 * signBit := b.isLt
  have hsign : (unpackSign b).toNat = b.toNat / signBit := by
    simp [unpackSign, BitVec.extractLsb_toNat, Nat.shiftRight_eq_div_pow, signBit] at hlt ⊢
    omega
  have hzero : unpackSign b = 0#1 ↔ ¬signBit ≤ b.toNat := by
    rw [← BitVec.toNat_inj, hsign]
    simp [signBit]
  simp only [Sign.ofBitVec, hzero, ite_not, signOf, decide_eq_true_eq]

theorem unpacks_unpack :
    Unpacks (decide (signBit ≤ b.toNat)) (b.toNat % signBit) (unpack .binary64 b) := by
  have hE := toNat_unpackExponent b
  have hM := toNat_unpackMantissa b
  have hMmax : (unpackMantissa b).toNat < perExponent := (unpackMantissa b).isLt
  have hEmax : (unpackExponent b).toNat < 2048 := (unpackExponent b).isLt
  have hparts := Nat.div_add_mod' (b.toNat % signBit) perExponent
  have hinf : infinity = 2047 * perExponent := rfl
  have hbias : Format.exponentBias .binary64 = 1023 := rfl
  rw [← hE, ← hM] at hparts
  simp only [unpack, ofBitVec_unpackSign]
  split
  · rename_i hexp
    rw [hexp] at hparts
    have hmax : (-1#11).toNat = 2047 := rfl
    split
    · rename_i hman
      rw [hman] at hparts
      exact .infinity (by rw [← hparts, hinf]; rfl)
    · rename_i hman
      have hM0 : (unpackMantissa b).toNat ≠ 0 := fun h => hman (BitVec.eq_of_toNat_eq h)
      exact .nan (by rw [← hparts, hinf, hmax]; omega)
  rename_i hexp
  have hE2047 : (unpackExponent b).toNat ≠ 2047 := fun h => hexp (BitVec.eq_of_toNat_eq h)
  have hlt : b.toNat % signBit < infinity := by
    rw [← hparts, hinf]
    simp only [perExponent] at hMmax ⊢
    omega
  split
  · -- Without an implicit bit the exponent is that of the first normal numbers.
    rename_i hexp0
    rw [hexp0] at hparts
    split
    · rename_i hman
      rw [hman] at hparts
      exact .zero hparts.symm
    · refine .finite _ hlt hparts.symm (.inr rfl) (by omega) ?_
      rw [hexp0, hbias]
      rfl
  · rename_i hexp0
    have hone : (1#1 ++ unpackMantissa b).toNat = perExponent + (unpackMantissa b).toNat :=
      toNat_one_append _
    have hE0 : (unpackExponent b).toNat ≠ 0 := fun h => hexp0 (BitVec.eq_of_toNat_eq h)
    obtain ⟨s, hs⟩ := Nat.exists_eq_succ_of_ne_zero hE0
    rw [hs, Nat.succ_mul, Nat.add_assoc, ← hone] at hparts
    refine .finite _ hlt hparts.symm (.inl (by omega)) (by omega) ?_
    rw [hs, hbias]
    push_cast
    omega

end Fields

variable {x y : Float}

theorem unpacks (x : Float) : Unpacks (isNegative x) (index x) x.toModel.unpack :=
  unpacks_unpack x.toModel.toBits.toBitVec

theorem isNaN_iff : x.isNaN = true ↔ infinity < index x := by
  have h := unpacks x
  simp only [Float.isNaN, Float.Model.isNaN]
  generalize x.toModel.unpack = u at h
  cases h with
  | nan hi => simpa [UnpackedFloat.isNaN] using hi
  | infinity hi => simp [UnpackedFloat.isNaN, hi]
  | zero hi => simp [UnpackedFloat.isNaN, hi]
  | finite _ hi => simp [UnpackedFloat.isNaN, hi.le]

theorem isNaN_eq_false_iff : x.isNaN = false ↔ index x ≤ infinity := by
  rw [← Bool.not_eq_true, isNaN_iff, Nat.not_lt]

/-! ## Ranks -/

/-- The number of the magnitude with the sign in front of it. -/
def rank (x : Float) : Int :=
  if isNegative x then -index x else index x

/-- Numbers grow with the exponent, and with the mantissa where exponents are equal. -/
theorem compare_block {s s' m m' : Nat} (hs : perExponent ≤ m ∨ s = 0) (hm : m < 2 * perExponent)
    (hs' : perExponent ≤ m' ∨ s' = 0) (hm' : m' < 2 * perExponent) :
    (compare (s - 1074 : Int) (s' - 1074)).then (compare m m') =
      compare (s * perExponent + m) (s' * perExponent + m') := by
  have hle : ∀ {s s' : Nat}, s < s' → s * perExponent + perExponent ≤ s' * perExponent := by
    intro s s' h
    rw [← Nat.succ_mul]
    exact Nat.mul_le_mul_right _ h
  rcases Nat.lt_trichotomy s s' with hlt | rfl | hgt
  · have hexp : (s - 1074 : Int) < s' - 1074 := by omega
    have hnum : s * perExponent + m < s' * perExponent + m' := by
      have h := hle hlt
      omega
    rw [compare_lt_iff_lt.2 hexp, compare_lt_iff_lt.2 hnum, Ordering.lt_then]
  · rw [compare_eq_iff_eq.2 rfl, Ordering.eq_then]
    simp only [Nat.compare_eq_ite_lt, Nat.add_lt_add_iff_left]
  · have hexp : (s' - 1074 : Int) < s - 1074 := by omega
    have hnum : s' * perExponent + m' < s * perExponent + m := by
      have h := hle hgt
      omega
    rw [compare_gt_iff_gt.2 hexp, compare_gt_iff_gt.2 hnum, Ordering.gt_then]

theorem compare_cast (i j : Nat) : compare (i : Int) j = compare i j := by
  rcases Nat.lt_trichotomy i j with h | rfl | h
  · rw [compare_lt_iff_lt.2 h, compare_lt_iff_lt.2 (Int.ofNat_lt.2 h)]
  · rw [compare_eq_iff_eq.2 rfl, compare_eq_iff_eq.2 rfl]
  · rw [compare_gt_iff_gt.2 h, compare_gt_iff_gt.2 (Int.ofNat_lt.2 h)]

theorem compare_neg (a b : Int) : compare (-a) (-b) = (compare a b).swap := by
  rcases Int.lt_trichotomy a b with h | rfl | h
  · rw [compare_lt_iff_lt.2 h, compare_gt_iff_gt.2 (Int.neg_lt_neg h)]
    rfl
  · rw [compare_eq_iff_eq.2 rfl, compare_eq_iff_eq.2 rfl]
    rfl
  · rw [compare_gt_iff_gt.2 h, compare_lt_iff_lt.2 (Int.neg_lt_neg h)]
    rfl

/-- Floats other than NaN compare by their ranks. -/
theorem compare_rank (hx : x.isNaN = false) (hy : y.isNaN = false) :
    some (compare (rank x) (rank y)) = x.toModel.unpack.compare y.toModel.unpack := by
  have hinf : 0 < infinity := by decide
  have hsame : ∀ s : Sign, compare s s = .eq := by decide
  have hless : compare Sign.negative Sign.positive = .lt := by decide
  have hgreater : compare Sign.positive Sign.negative = .gt := by decide
  have hxle := isNaN_eq_false_iff.1 hx
  have hyle := isNaN_eq_false_iff.1 hy
  have hu := unpacks x
  have hv := unpacks y
  unfold rank
  -- Only signs and numbers matter from here on.
  generalize x.toModel.unpack = u at hu
  generalize y.toModel.unpack = v at hv
  generalize isNegative x = s at hu
  generalize isNegative y = t at hv
  generalize index x = i at hu hxle
  generalize index y = j at hv hyle
  cases hu with
  | nan hi => omega
  | infinity hi =>
    cases hv with
    | nan hj => omega
    | infinity hj =>
      cases s <;> cases t <;> simp [UnpackedFloat.compare, signOf, hi, hj, hsame, hless, hgreater,
        compare_lt_iff_lt, compare_gt_iff_gt, hinf]
    | zero hj =>
      cases s <;> cases t <;> simp [UnpackedFloat.compare, signOf, hi, hj, hinf,
        compare_lt_iff_lt, compare_gt_iff_gt]
    | finite h hj =>
      cases s <;> cases t <;> simp [UnpackedFloat.compare, signOf, hi, compare_lt_iff_lt,
        compare_gt_iff_gt] <;> omega
  | zero hi =>
    cases hv with
    | nan hj => omega
    | infinity hj =>
      cases s <;> cases t <;> simp [UnpackedFloat.compare, signOf, hi, hj, hinf,
        compare_lt_iff_lt, compare_gt_iff_gt]
    | zero hj => cases s <;> cases t <;> simp [UnpackedFloat.compare, hi, hj]
    | finite h hj =>
      cases s <;> cases t <;> simp [UnpackedFloat.compare, signOf, hi, compare_lt_iff_lt,
        compare_gt_iff_gt] <;> omega
  | finite h hlt hi hs hm he =>
    cases hv with
    | nan hj => omega
    | infinity hj =>
      cases s <;> cases t <;> simp [UnpackedFloat.compare, signOf, hj, compare_lt_iff_lt,
        compare_gt_iff_gt] <;> omega
    | zero hj =>
      cases s <;> cases t <;> simp [UnpackedFloat.compare, signOf, hj, compare_lt_iff_lt,
        compare_gt_iff_gt] <;> omega
    | finite h' hlt' hj hs' hm' he' =>
      have hblock := compare_block hs hm hs' hm'
      rw [← he, ← he', ← hi, ← hj] at hblock
      cases s <;> cases t <;> simp [UnpackedFloat.compare, signOf, hblock, compare_cast, compare_neg,
        compare_lt_iff_lt, compare_gt_iff_gt] <;> omega

theorem compare_nan (h : x.isNaN = true ∨ y.isNaN = true) :
    x.toModel.unpack.compare y.toModel.unpack = none := by
  simp only [Float.isNaN, Float.Model.isNaN] at h
  generalize x.toModel.unpack = u at h
  generalize y.toModel.unpack = v at h
  cases u <;> cases v <;> simp_all [UnpackedFloat.isNaN, UnpackedFloat.compare]

/-! ## Comparisons -/

theorem lt_iff_compare : x < y ↔ x.toModel.unpack.compare y.toModel.unpack = some .lt := by
  show x.lt y = true ↔ _
  rw [Float.lt, decide_eq_true_iff]
  exact beq_iff_eq

theorem beq_iff_compare :
    (x == y) = true ↔ x.toModel.unpack.compare y.toModel.unpack = some .eq := by
  show (x.toModel.unpack.compare y.toModel.unpack == some .eq) = true ↔ _
  exact beq_iff_eq

theorem le_iff_compare : x ≤ y ↔ x < y ∨ (x == y) = true := by
  rw [lt_iff_compare, beq_iff_compare]
  show x.le y = true ↔ _
  rw [Float.le, decide_eq_true_iff]
  show Option.any _ (x.toModel.unpack.compare y.toModel.unpack) = true ↔ _
  cases x.toModel.unpack.compare y.toModel.unpack with
  | none => simp
  | some o => cases o <;> simp

section Ranks
variable (hx : x.isNaN = false) (hy : y.isNaN = false)
include hx hy

theorem lt_iff_rank : x < y ↔ rank x < rank y := by
  rw [lt_iff_compare, ← compare_rank hx hy, Option.some_inj, compare_lt_iff_lt]

theorem beq_iff_rank : (x == y) = true ↔ rank x = rank y := by
  rw [beq_iff_compare, ← compare_rank hx hy, Option.some_inj, compare_eq_iff_eq]

theorem le_iff_rank : x ≤ y ↔ rank x ≤ rank y := by
  rw [le_iff_compare, lt_iff_rank hx hy, beq_iff_rank hx hy, Int.le_iff_lt_or_eq]

end Ranks

end CellFormula.Number
