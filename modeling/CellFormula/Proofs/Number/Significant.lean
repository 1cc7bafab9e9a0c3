import CellFormula.Proofs.Number.Fewest
import CellFormula.Proofs.Number.Numeral
import Mathlib.Data.List.DropRight
/-!
# Significant digits

The significant digits of a numeral text are those in front of its exponent, from the first to the last
one that is not zero. Zeros on either side only move the point, so they do not count towards the power of
ten that bounds the coefficient, and the text of the shortest numeral has the fewest significant digits of
all texts that are rounded to its magnitude.
-/

namespace CellFormula.Number

/-! ## Digits between zeros -/

/-- The digits from the first to the last one that is not zero. -/
def stripZeros (ds : List Char) : List Char :=
  (ds.dropWhile (· == '0')).rdropWhile (· == '0')

theorem exists_zeros (ds : List Char) :
    ∃ m n, ds = List.replicate m '0' ++ (stripZeros ds ++ List.replicate n '0') := by
  have hzeros : ∀ {zs : List Char}, (∀ c ∈ zs, (c == '0') = true) → zs = List.replicate zs.length '0' :=
    fun h => List.eq_replicate_iff.2 ⟨rfl, fun c hc => beq_iff_eq.1 (h c hc)⟩
  refine ⟨(ds.takeWhile (· == '0')).length, ((ds.dropWhile (· == '0')).rtakeWhile (· == '0')).length, ?_⟩
  rw [← hzeros fun _ => List.mem_takeWhile_imp, ← hzeros fun _ => List.mem_rtakeWhile_imp, stripZeros,
    List.rdropWhile_append_rtakeWhile, List.takeWhile_append_dropWhile]

theorem length_stripZeros_le (m n : Nat) (ds : List Char) :
    (stripZeros (List.replicate m '0' ++ (ds ++ List.replicate n '0'))).length ≤ ds.length := by
  have hzeros : ∀ k, ∀ c ∈ List.replicate k '0', (c == '0') = true := fun k c hc =>
    beq_iff_eq.2 (List.eq_of_mem_replicate hc)
  rw [stripZeros, List.dropWhile_append_of_pos (hzeros m), List.dropWhile_append]
  split
  · have hnil : (List.replicate n '0').dropWhile (· == '0') = [] := List.dropWhile_eq_nil_iff.2 (hzeros n)
    rw [hnil]
    exact Nat.zero_le _
  · rw [List.rdropWhile, List.reverse_append, List.reverse_replicate,
      List.dropWhile_append_of_pos (hzeros n), List.length_reverse]
    exact ((List.dropWhile_sublist _).length_le.trans_eq List.length_reverse).trans
      (List.dropWhile_sublist _).length_le

/-! ## Digits of a numeral text -/

/-- The digits in front of the exponent. -/
def significand (cs : List Char) : List Char :=
  (cs.takeWhile fun c => !(c == 'e' || c == 'E')).filter Char.isDigit

/-- The digits in front of the exponent that are significant. -/
def significantDigits (cs : List Char) : List Char :=
  stripZeros (significand cs)

theorem isDigit_of_mem_significantDigits {cs : List Char} {c : Char} (h : c ∈ significantDigits cs) :
    c.isDigit = true := by
  have hsub : (significantDigits cs).Sublist (significand cs) :=
    (List.rdropWhile_prefix _ _).sublist.trans (List.dropWhile_sublist _)
  exact (List.mem_filter.1 (hsub.subset h)).2

section Reading
variable {cs rest front tail : List Char} {d : Decimal} {e : Int}

theorem significand_append (hfront : ∀ c ∈ front, c ≠ 'e' ∧ c ≠ 'E') (htail : SpellsExponent tail e) :
    significand (front ++ tail) = front.filter Char.isDigit := by
  rw [significand, htail.takeWhile_append hfront]

/-- The sign is no digit. -/
theorem significantDigits_splitSign (cs : List Char) :
    significantDigits (splitSign cs).2 = significantDigits cs := by
  unfold splitSign
  split <;> rfl

theorem exists_point (h : splitFraction cs = (front, rest)) : ∃ point,
    cs = point ++ rest ∧ point.filter Char.isDigit = front ∧ ∀ c ∈ point, c ≠ 'e' ∧ c ≠ 'E' := by
  unfold splitFraction at h
  split at h
  · rename_i cs
    cases h
    have hdigits : ∀ c ∈ cs.takeWhile Char.isDigit, c.isDigit = true := fun _ => List.mem_takeWhile_imp
    refine ⟨'.' :: cs.takeWhile Char.isDigit, ?_, ?_, fun c hc => ?_⟩
    · rw [List.cons_append, List.takeWhile_append_dropWhile]
    · exact List.filter_eq_self.2 hdigits
    · exact ne_exponent_of_digit_or_point ((List.mem_cons.1 hc).symm.imp_left (hdigits c))
  · cases h
    exact ⟨[], rfl, rfl, nofun⟩

/-- The coefficient that is read is the value of the digits in front of the exponent. -/
theorem coefficient_of_read? (h : Decimal.read? cs = some d) :
    d.coefficient = digitsValue (significand cs) := by
  have hdigits : ∀ c ∈ cs.takeWhile Char.isDigit, c.isDigit = true := fun _ => List.mem_takeWhile_imp
  obtain ⟨⟨fs, rest⟩, hsplit⟩ : ∃ answer, splitFraction (cs.dropWhile Char.isDigit) = answer := ⟨_, rfl⟩
  obtain ⟨point, hcs, rfl, hpoint⟩ := exists_point hsplit
  unfold Decimal.read? at h
  simp only [hsplit, Option.ite_none_left_eq_some] at h
  obtain ⟨-, h⟩ := h
  obtain ⟨e, he, rfl⟩ := Option.map_eq_some_iff.1 h
  have hfront : ∀ c ∈ cs.takeWhile Char.isDigit ++ point, c ≠ 'e' ∧ c ≠ 'E' :=
    List.forall_mem_append.2 ⟨fun c hc => ne_exponent_of_digit_or_point (.inl (hdigits c hc)), hpoint⟩
  have hdigitsOf := significand_append hfront (readExponent?_eq_some.1 he)
  rw [List.append_assoc, ← hcs, List.takeWhile_append_dropWhile, List.filter_append,
    List.filter_eq_self.2 hdigits] at hdigitsOf
  rw [hdigitsOf]

/-- The significant digits alone spell a numeral of the same value. -/
theorem exists_value_eq (h : Decimal.read? cs = some d) : ∃ n : Nat,
    (Decimal.mk (digitsValue (significantDigits cs)) (d.exponent + n)).value = d.value := by
  obtain ⟨m, n, hds⟩ := exists_zeros (significand cs)
  refine ⟨n, ?_⟩
  have hvalue : d.coefficient = digitsValue (significantDigits cs) * 10 ^ n := by
    rw [coefficient_of_read? h, hds, digitsValue_append, digitsValue_append, digitsValue_zeros,
      digitsValue_zeros, List.length_replicate, Nat.mul_zero, Nat.zero_add, Nat.add_zero, Nat.mul_comm]
    rfl
  rw [Decimal.value, Decimal.value, hvalue, zpow_add₀ (by norm_num), zpow_natCast]
  push_cast
  ring

/-- A text that is rounded to a positive magnitude has at least as many significant digits as the
coefficient of the shortest numeral. -/
theorem shortest_coefficient_lt_of_read? {i : Nat} (hi : i ≠ 0) (h : Decimal.read? cs = some d)
    (hd : d.rounded = i) : (shortest i).coefficient < 10 ^ (significantDigits cs).length := by
  obtain ⟨n, hvalue⟩ := exists_value_eq h
  have hrounded : (Decimal.mk (digitsValue (significantDigits cs)) (d.exponent + n)).rounded = i :=
    hd ▸ Nat.le_antisymm (rounded_le_rounded hvalue.le) (rounded_le_rounded hvalue.ge)
  exact shortest_coefficient_lt hi hrounded (digitsValue_lt fun _ => isDigit_of_mem_significantDigits)

end Reading

/-! ## Positional texts -/

/-- Digits with no zero in front of others. -/
structure IsWhole (ws : List Char) : Prop where
  ne_nil : ws ≠ []
  isDigit : ∀ c ∈ ws, c.isDigit = true
  no_leading_zero : ws.head? = some '0' → ws = ['0']

/-- A whole number, or one with places behind the point of which the last is not zero. -/
inductive IsPlain : List Char → Prop
  | whole {ws} : IsWhole ws → IsPlain ws
  | fraction {ws fs} : IsWhole ws → fs ≠ [] → (∀ c ∈ fs, c.isDigit = true) → fs.getLast? ≠ some '0' →
      IsPlain (ws ++ '.' :: fs)

theorem getLast?_toDigits {n : Nat} (h : ¬10 ∣ n) : (Nat.toDigits 10 n).getLast? ≠ some '0' := by
  have hne : (n % 10).digitChar ≠ '0' := fun hzero => by
    have hmod := Nat.digitChar_eq_zero.1 hzero
    omega
  by_cases hn : n < 10
  · rw [Nat.toDigits_of_lt_base hn, List.getLast?_singleton, ← Nat.mod_eq_of_lt hn]
    simpa using hne
  · rw [Nat.toDigits_of_base_le (by decide) (Nat.not_lt.1 hn), List.getLast?_concat]
    simpa using hne

section Positional
variable {d : Decimal}

/-- The digits of a positional text are those of the coefficient between zeros. -/
theorem significand_positional (d : Decimal) : ∃ m n, significand d.positional =
    List.replicate m '0' ++ (Nat.toDigits 10 d.coefficient ++ List.replicate n '0') := by
  obtain ⟨d', hspells, -⟩ := spells_positional d
  have hfilter : significand d.positional = d.positional.filter Char.isDigit := by
    have happend := significand_append (fun _ => hspells.ne_exponent) .absent
    rwa [List.append_nil] at happend
  rw [hfilter]
  rcases lt_or_ge d.exponent 0 with hneg | hnonneg
  · obtain ⟨ws, fs, n, htext, hdigits, -⟩ := positional_of_neg hneg
    refine ⟨n, 0, ?_⟩
    have hpoint : ('.' :: fs).filter Char.isDigit = fs.filter Char.isDigit := rfl
    rw [htext, List.filter_append, hpoint, ← List.filter_append, hdigits, List.replicate_zero,
      List.append_nil]
    exact List.filter_eq_self.2 isDigit_of_mem_zeros_append
  · refine ⟨0, d.exponent.toNat, ?_⟩
    rw [positional_of_nonneg hnonneg, List.replicate_zero, List.nil_append]
    exact List.filter_eq_self.2 isDigit_of_mem_append_zeros

theorem isPlain_positional (hc : ¬10 ∣ d.coefficient) : IsPlain d.positional := by
  have hone : 1 ≤ d.coefficient := Nat.pos_of_ne_zero fun hzero => hc (hzero ▸ Nat.dvd_zero 10)
  have hhead := head?_toDigits hone
  rcases lt_or_ge d.exponent 0 with hneg | hnonneg
  · obtain ⟨ws, fs, n, htext, hdigits, hws, hlen, hzero⟩ := positional_of_neg hneg
    have hfs : fs ≠ [] := by
      rw [← List.length_pos_iff]
      omega
    obtain ⟨hwdigits, hfdigits⟩ : (∀ c ∈ ws, c.isDigit = true) ∧ ∀ c ∈ fs, c.isDigit = true := by
      rw [← List.forall_mem_append, hdigits]
      exact isDigit_of_mem_zeros_append
    rw [htext]
    refine .fraction ⟨hws, hwdigits, fun hlead => ?_⟩ hfs hfdigits ?_
    · rcases Nat.eq_zero_or_pos n with rfl | hn
      · rw [List.replicate_zero, List.nil_append] at hdigits
        rw [← hdigits, List.head?_append_of_ne_nil _ hws] at hhead
        exact absurd hlead hhead
      · obtain ⟨c, rfl⟩ := List.length_eq_one_iff.1 (hzero hn)
        rw [Option.some.inj hlead]
    · have hlast := congrArg List.getLast? hdigits
      rw [List.getLast?_append_of_ne_nil _ hfs,
        List.getLast?_append_of_ne_nil _ Nat.toDigits_ne_nil] at hlast
      rw [hlast]
      exact getLast?_toDigits hc
  · rw [positional_of_nonneg hnonneg]
    refine .whole ⟨by simp [Nat.toDigits_ne_nil], isDigit_of_mem_append_zeros, fun hlead => ?_⟩
    rw [List.head?_append_of_ne_nil _ Nat.toDigits_ne_nil] at hlead
    exact absurd hlead hhead

theorem length_significantDigits_positional_le (d : Decimal) :
    (significantDigits d.positional).length ≤ (Nat.toDigits 10 d.coefficient).length := by
  obtain ⟨m, n, hdigits⟩ := significand_positional d
  rw [significantDigits, hdigits]
  exact length_stripZeros_le m n _

end Positional

/-! ## The shortest text -/

section Shortest
variable {i : Nat}

theorem positional_shortest_zero : (shortest 0).positional = ['0'] := by decide +kernel

theorem isPlain_shortest (i : Nat) : IsPlain (shortest i).positional := by
  by_cases hi : i = 0
  · rw [hi, positional_shortest_zero]
    exact .whole ⟨List.cons_ne_nil _ _, List.forall_mem_singleton.2 rfl, fun _ => rfl⟩
  · exact isPlain_positional (not_ten_dvd_shortest hi)

/-- No text that is rounded to a finite magnitude has fewer significant digits than the shortest one. -/
theorem length_significantDigits_shortest_le {cs : List Char} {d : Decimal} (hi : i < infinity)
    (h : Decimal.read? cs = some d) (hd : d.index = i) :
    (significantDigits (shortest i).positional).length ≤ (significantDigits cs).length := by
  by_cases hzero : i = 0
  · rw [hzero, positional_shortest_zero]
    exact Nat.zero_le _
  have hrounded : d.rounded = i := by
    have hmin := d.index_eq
    omega
  have hlt := shortest_coefficient_lt_of_read? hzero h hrounded
  have hpos : 0 < (significantDigits cs).length := by
    refine Nat.pos_of_ne_zero fun hnone => not_ten_dvd_shortest hzero ?_
    rw [hnone, Nat.pow_zero, Nat.lt_one_iff] at hlt
    rw [hlt]
    exact Nat.dvd_zero 10
  exact (length_significantDigits_positional_le _).trans
    ((Nat.length_toDigits_le_iff (by decide) hpos).2 hlt)

end Shortest

end CellFormula.Number
