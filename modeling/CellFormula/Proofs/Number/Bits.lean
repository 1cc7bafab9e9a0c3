import CellFormula.Number.Grid
import Mathlib
/-!
# Sign and number make up a float

The logic knows a float by its bits, where all the patterns of NaN are one. So a float is its sign
and the number of its magnitude, and the other way round every sign and every number up to infinity
come back from the float they make.
-/

namespace CellFormula.Number

open Float.Model (Format)
open Float.Model.UnpackedFloat

/-! ## Bit patterns -/

theorem toBitVec_ofBitVec (b : BitVec 1) : (Sign.ofBitVec b).toBitVec = b := by
  unfold Sign.ofBitVec
  split
  · rename_i h
    rw [h]
    rfl
  · rename_i h
    have hlt := b.isLt
    have h0 : b.toNat ≠ 0 := fun h' => h (BitVec.eq_of_toNat_eq h')
    apply BitVec.eq_of_toNat_eq
    simp only [Sign.toBitVec, BitVec.toNat_ofNat]
    omega

theorem packComponents_unpack {spec : Format} (b : BitVec spec.numBits) :
    packComponents spec (Sign.ofBitVec (unpackSign b)) (unpackExponent b) (unpackMantissa b) = b := by
  have hm := spec.hm
  have he := spec.he
  rw [packComponents, toBitVec_ofBitVec]
  ext i hi
  simp only [unpackSign, unpackExponent, unpackMantissa, BitVec.getElem_append]
  split
  · simp [BitVec.getLsbD_eq_getElem hi]
  split
  · simp [Nat.add_sub_cancel' (show spec.mantissaBitsWithoutImplicit ≤ i by omega),
      BitVec.getLsbD_eq_getElem hi]
  · have hi' : spec.mantissaBitsWithoutImplicit + spec.exponentBits = i := by omega
    simp [show i - spec.mantissaBitsWithoutImplicit - spec.exponentBits = 0 by omega, hi',
      BitVec.getLsbD_eq_getElem hi]

theorem toNat_one_append {n : Nat} (b : BitVec n) : (1#1 ++ b).toNat = 2 ^ n + b.toNat := by
  rw [BitVec.toNat_append, ← Nat.shiftLeft_add_eq_or_of_lt b.isLt]
  simp [Nat.shiftLeft_eq]

theorem pack_unpack {b : BitVec Format.binary64.numBits} (h : Format.binary64.Valid b) :
    pack .binary64 (unpack .binary64 b) = b := by
  have hp := packComponents_unpack b
  have hbias : Format.exponentBias .binary64 = 1023 := rfl
  have hbits : Format.mantissaBits .binary64 = 53 := rfl
  unfold unpack
  dsimp only
  split
  · rename_i he
    rw [he] at hp
    split
    · rename_i hm
      rw [hm] at hp
      exact hp
    · -- There is one NaN only, so the packed one must be it.
      rename_i hm
      exact (h.eq_packedNaN he hm).symm
  split
  · rename_i he
    rw [he] at hp
    split
    · rename_i hm
      rw [hm] at hp
      exact hp
    · rename_i hm
      have hlog : (unpackMantissa b).toNat.log2 < 52 :=
        (Nat.log2_lt fun h0 => hm (BitVec.eq_of_toNat_eq h0)).2 (unpackMantissa b).isLt
      simp only [pack, hbias, hbits, he]
      rw [if_neg (by decide), if_neg (by omega), BitVec.ofNat_toNat, BitVec.setWidth_eq]
      exact hp
  · rename_i hinf hzero
    have hlt : (unpackExponent b).toNat < 2 ^ 11 := (unpackExponent b).isLt
    have hmlt : (unpackMantissa b).toNat < 2 ^ 52 := (unpackMantissa b).isLt
    have hmax : (unpackExponent b).toNat ≠ 2047 := fun h => hinf (BitVec.eq_of_toNat_eq h)
    -- Packing knows normal numbers by their leading bit, and then drops it.
    have hone : (1#1 ++ unpackMantissa b).toNat = 2 ^ 52 + (unpackMantissa b).toNat :=
      toNat_one_append _
    have hlog : (1#1 ++ unpackMantissa b).toNat.log2 = 52 := by
      rw [Nat.log2_eq_iff (by omega)]
      omega
    have hexp : ((unpackExponent b).toNat - ((1023 : Nat) + (52 : Nat)) + (1023 : Nat) +
      (52 : Nat) : Int).toNat = (unpackExponent b).toNat := by omega
    have hman : BitVec.ofNat 52 (1#1 ++ unpackMantissa b).toNat = unpackMantissa b := by
      apply BitVec.eq_of_toNat_eq
      rw [BitVec.toNat_ofNat, hone]
      omega
    simp only [pack, hbias, hbits, hlog, hexp, hman, BitVec.ofNat_toNat, BitVec.setWidth_eq]
    rw [if_neg (by omega), if_pos trivial]
    exact hp

/-! ## Floats -/

theorem valid_of_index_le {b : UInt64} (h : b.toNat % signBit ≤ infinity) :
    Format.binary64.Valid b.toBitVec := by
  refine ⟨fun he hm => absurd ?_ hm⟩
  have hexp : (@unpackExponent .binary64 b.toBitVec).toNat = 2047 := by rw [he]; rfl
  apply BitVec.eq_of_toNat_eq
  simp only [unpackExponent, unpackMantissa, BitVec.toNat_cast, BitVec.extractLsb_toNat] at hexp ⊢
  simp [Nat.shiftRight_eq_div_pow, signBit, infinity] at hexp h ⊢
  omega

theorem toBits_ofBits {b : UInt64} (h : b.toNat % signBit ≤ infinity) :
    (Float.ofBits b).toBits = b := by
  simp only [Float.ofBits, Float.toBits, Float.Model.ofBits, Float.Model.pack]
  rw [pack_unpack (valid_of_index_le h)]

theorem ofIndex_index (x : Float) : ofIndex (isNegative x) (index x) = x := by
  have hlt : x.toBits.toNat < 2 * signBit := x.toBits.toNat_lt
  have h : (if isNegative x then signBit + index x else index x) = x.toBits.toNat := by
    by_cases hs : signBit ≤ x.toBits.toNat
    · simp only [isNegative, index, hs, decide_true, if_true]
      simp only [signBit] at hlt hs ⊢
      omega
    · simp only [isNegative, index, hs, decide_false, Bool.false_eq_true, if_false]
      exact Nat.mod_eq_of_lt (Nat.not_le.1 hs)
  rw [ofIndex, h, UInt64.ofNat_toNat, Float.ofBits_toBits]

theorem toBits_ofIndex {negative : Bool} {i : Nat} (h : i ≤ infinity) :
    (ofIndex negative i).toBits.toNat = if negative then signBit + i else i := by
  have hi : i < signBit := Nat.lt_of_le_of_lt h (by decide)
  have hb : (UInt64.ofNat (if negative then signBit + i else i)).toNat =
      if negative then signBit + i else i := by
    rw [UInt64.toNat_ofNat']
    apply Nat.mod_eq_of_lt
    simp only [signBit] at hi ⊢
    split <;> omega
  rw [ofIndex, toBits_ofBits, hb]
  rw [hb]
  cases negative
  · simpa [Nat.mod_eq_of_lt hi] using h
  · simpa [Nat.mod_eq_of_lt hi] using h

theorem index_ofIndex {negative : Bool} {i : Nat} (h : i ≤ infinity) :
    index (ofIndex negative i) = i := by
  have hi : i < signBit := Nat.lt_of_le_of_lt h (by decide)
  rw [index, toBits_ofIndex h]
  cases negative <;> simp [Nat.mod_eq_of_lt hi]

theorem isNegative_ofIndex {negative : Bool} {i : Nat} (h : i ≤ infinity) :
    isNegative (ofIndex negative i) = negative := by
  have hi : i < signBit := Nat.lt_of_le_of_lt h (by decide)
  rw [isNegative, toBits_ofIndex h]
  cases negative <;> simp [hi]

theorem isFinite_iff {x : Float} : x.isFinite = true ↔ index x < infinity := by
  obtain ⟨⟨b, hb⟩⟩ := x
  have hexp : (@unpackExponent .binary64 b.toBitVec).toNat =
      b.toNat / 2 ^ 52 % 2 ^ 11 := by
    simp [unpackExponent, BitVec.extractLsb_toNat, Nat.shiftRight_eq_div_pow]
  have hmax : @unpackExponent .binary64 b.toBitVec = -1#11 ↔
      ¬b.toNat % signBit < infinity := by
    rw [← BitVec.toNat_inj, hexp]
    simp [signBit, infinity]
    omega
  simp only [Float.isFinite, Float.Model.isFinite, Float.Model.unpack, index, Float.toBits]
  unfold unpack
  dsimp only
  by_cases h : b.toNat % signBit < infinity
  · rw [if_neg fun h' => hmax.1 h' h]
    simp only [h, iff_true]
    split
    · split <;> rfl
    · rfl
  · rw [if_pos (hmax.2 h)]
    simp only [h, iff_false]
    split <;> exact Bool.false_ne_true

end CellFormula.Number
