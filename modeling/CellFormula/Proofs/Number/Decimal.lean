import CellFormula.Number.Decimal
import CellFormula.Proofs.Lists
import CellFormula.Proofs.Number.Grid
/-!
# Reading decimal numerals

The number of a numeral's nearest magnitude depends on nothing but its value, and it grows with the
value: the shortcuts for numerals that are far out of range change no answer. `Spells` describes the
texts without an exponent, by their digits, and each piece of such a text from its start on spells a
value that is no larger.
-/

namespace CellFormula.Number

/-! ## Rounding -/

/-- The nearest magnitude, without a bound on the power of ten or on the number. -/
def Decimal.rounded (d : Decimal) : Nat :=
  nearest (d.coefficient * 10 ^ d.exponent.toNat * 2 ^ 1074) (10 ^ (-d.exponent).toNat)

theorem le_of_le_pow {u c b e t : Nat} (hu : u ≤ 10 ^ b * 2 ^ t) (hc : c ≠ 0) (he : b ≤ e) :
    u ≤ c * 10 ^ e * 2 ^ t :=
  calc u ≤ 10 ^ b * 2 ^ t := hu
    _ ≤ 10 ^ e * 2 ^ t := Nat.mul_le_mul_right _ (Nat.pow_le_pow_right (by decide) he)
    _ ≤ c * 10 ^ e * 2 ^ t :=
      Nat.mul_le_mul_right _ (Nat.le_mul_of_pos_left _ (Nat.pos_of_ne_zero hc))

theorem rounded_of_large {d : Decimal} (hc : d.coefficient ≠ 0) (he : 310 ≤ d.exponent) :
    infinity ≤ d.rounded := by
  have hzero : (-d.exponent).toNat = 0 := by omega
  have hinf : units infinity ≤ 10 ^ 310 * 2 ^ 1074 := by decide +kernel
  rw [← nearest_units Nat.one_pos infinity, Decimal.rounded, hzero]
  refine nearest_le_nearest Nat.one_pos (by decide) ?_
  simp only [Nat.pow_zero, Nat.mul_one]
  exact le_of_le_pow (b := 310) (t := 1074) hinf hc (by omega)

theorem double_lt_pow {c l s t k : Nat} (hc : c < 2 ^ (l + 1)) (hpow : 2 ^ (t + 2) ≤ 10 ^ s) :
    2 * (c * 2 ^ t) < 10 ^ (l + s + k) :=
  calc 2 * (c * 2 ^ t) < 2 * (2 ^ (l + 1) * 2 ^ t) := by
        have := Nat.mul_lt_mul_of_pos_right hc (Nat.two_pow_pos t)
        omega
    _ = 2 ^ l * 2 ^ (t + 2) := by
        rw [← Nat.pow_add, ← Nat.pow_succ', ← Nat.pow_add]
        congr 1
        omega
    _ ≤ 10 ^ l * 10 ^ s := Nat.mul_le_mul (Nat.pow_le_pow_left (by decide) l) hpow
    _ = 10 ^ (l + s) := (Nat.pow_add ..).symm
    _ ≤ 10 ^ (l + s + k) := Nat.pow_le_pow_right (by decide) (Nat.le_add_right _ _)

theorem rounded_of_small {d : Decimal} (he : d.coefficient.log2 + d.exponent < -331) :
    d.rounded = 0 := by
  obtain ⟨k, hk⟩ : ∃ k, (-d.exponent).toNat = d.coefficient.log2 + 332 + k :=
    Nat.exists_eq_add_of_le (by omega)
  have hzero : d.exponent.toNat = 0 := by omega
  have hpow : 2 ^ (1074 + 2) ≤ 10 ^ 332 := by decide +kernel
  -- The quotient stays below a half of the least positive magnitude.
  have hlt := double_lt_pow (k := k) (Nat.lt_log2_self (n := d.coefficient)) hpow
  have hmid : twiceMidpoint 0 = 1 := by decide
  rw [Decimal.rounded, hk, hzero, Nat.pow_zero, Nat.mul_one]
  refine Nat.eq_zero_of_not_pos fun h => ?_
  have h' := (lt_nearest_iff (Nat.pow_pos (by decide))).1 h
  rw [hmid, Nat.one_mul] at h'
  omega

theorem Decimal.index_eq (d : Decimal) : d.index = min infinity d.rounded := by
  unfold Decimal.index
  split
  · rename_i hc
    have h : d.rounded = 0 := by
      have hz := nearest_units (Nat.pow_pos (n := (-d.exponent).toNat) (show 0 < 10 by decide)) 0
      rw [units_zero, Nat.zero_mul] at hz
      simp only [rounded, hc, Nat.zero_mul, hz]
    rw [h, Nat.min_zero]
  rename_i hc
  split
  · rename_i he
    exact (Nat.min_eq_left (rounded_of_large hc he)).symm
  split
  · rename_i he
    rw [rounded_of_small he, Nat.min_zero]
  · simp only [rounded, Nat.shiftLeft_eq, Nat.pow_eq]

/-- Rounding keeps the order of the values, which are compared as fractions. -/
theorem index_le_index {d d' : Decimal}
    (h : d.coefficient * 10 ^ d.exponent.toNat * 10 ^ (-d'.exponent).toNat ≤
      d'.coefficient * 10 ^ d'.exponent.toNat * 10 ^ (-d.exponent).toNat) : d.index ≤ d'.index := by
  have hr : d.rounded ≤ d'.rounded := by
    refine nearest_le_nearest (Nat.pow_pos (by decide)) (Nat.pow_pos (by decide)) ?_
    rw [Nat.mul_right_comm, Nat.mul_right_comm _ _ (10 ^ (-d.exponent).toNat)]
    exact Nat.mul_le_mul_right _ h
  rw [d.index_eq, d'.index_eq]
  omega

theorem index_eq_index {d d' : Decimal}
    (h : d.coefficient * 10 ^ d.exponent.toNat * 10 ^ (-d'.exponent).toNat =
      d'.coefficient * 10 ^ d'.exponent.toNat * 10 ^ (-d.exponent).toNat) : d.index = d'.index :=
  Nat.le_antisymm (index_le_index (Nat.le_of_eq h)) (index_le_index (Nat.le_of_eq h.symm))

/-- The values are compared by their coefficients where both have places behind the point. -/
theorem index_le_index_places {a b m n : Nat} (h : a * 10 ^ n ≤ b * 10 ^ m) :
    (Decimal.mk a (-m)).index ≤ (Decimal.mk b (-n)).index := by
  have hzero : ∀ k : Nat, (-(k : Int)).toNat = 0 := by omega
  have hplaces : ∀ k : Nat, (-(-(k : Int))).toNat = k := by omega
  apply index_le_index
  simpa only [hzero, hplaces, Nat.pow_zero, Nat.mul_one] using h

theorem index_le_index_exponent {c : Nat} {e e' : Int} (h : e ≤ e') :
    (Decimal.mk c e).index ≤ (Decimal.mk c e').index := by
  apply index_le_index
  dsimp only
  rw [Nat.mul_assoc, Nat.mul_assoc, ← Nat.pow_add, ← Nat.pow_add]
  exact Nat.mul_le_mul_left c (Nat.pow_le_pow_right (by decide) (by omega))

/-! ## Digits -/

theorem digitsValue_eq (cs : List Char) : digitsValue cs = Nat.ofDigitChars 10 cs 0 :=
  Nat.ofDigitChars_eq_foldl.symm

theorem digitsValue_append (cs ds : List Char) :
    digitsValue (cs ++ ds) = 10 ^ ds.length * digitsValue cs + digitsValue ds := by
  simp only [digitsValue_eq, Nat.ofDigitChars_append]
  rw [Nat.ofDigitChars_eq_ofDigitChars_zero]

theorem mul_digitsValue_le (cs ds : List Char) :
    10 ^ ds.length * digitsValue cs ≤ digitsValue (cs ++ ds) := by
  rw [digitsValue_append]
  exact Nat.le_add_right _ _

theorem digitsValue_le (cs ds : List Char) : digitsValue cs ≤ digitsValue (cs ++ ds) :=
  Nat.le_trans (Nat.le_mul_of_pos_left _ (Nat.pow_pos (by decide))) (mul_digitsValue_le cs ds)

theorem digitsValue_toDigits (n : Nat) : digitsValue (Nat.toDigits 10 n) = n := by
  rw [digitsValue_eq, Nat.ofDigitChars_ten_toDigits]

theorem digitsValue_zeros (n : Nat) : digitsValue (List.replicate n '0') = 0 := by
  rw [digitsValue_eq, Nat.ofDigitChars_replicate_zero, Nat.mul_zero]

theorem digitsValue_lt {cs : List Char} (h : ∀ c ∈ cs, c.isDigit = true) :
    digitsValue cs < 10 ^ cs.length := by
  induction cs with
  | nil => decide
  | cons c cs ih =>
    obtain ⟨hc, hcs⟩ := List.forall_mem_cons.1 h
    have hle : c.toNat ≤ 57 := (Char.isDigit_iff_toNat.1 hc).2
    have hvalue : digitsValue [c] ≤ 9 := by
      simp only [digitsValue, List.foldl_cons, List.foldl_nil]
      exact show 10 * 0 + (c.toNat - 48) ≤ 9 by omega
    rw [← List.singleton_append, digitsValue_append, List.length_append, Nat.pow_add]
    have hmul := Nat.mul_le_mul_left (10 ^ cs.length) hvalue
    have hlt := ih hcs
    simp only [List.length_singleton, Nat.pow_one]
    omega

theorem toDigits_digit {c : Char} (hc : c.isDigit = true) :
    Nat.toDigits 10 (c.toNat - '0'.toNat) = [c] := by
  obtain ⟨hle, hge⟩ : 48 ≤ c.toNat ∧ c.toNat ≤ 57 := Char.isDigit_iff_toNat.1 hc
  have hlt : c.toNat - '0'.toNat < 10 := show c.toNat - 48 < 10 by omega
  have hsame : (c.toNat - '0'.toNat).digitChar.toNat = c.toNat := by
    rw [Nat.toNat_digitChar_of_lt_ten hlt]
    exact show 48 + (c.toNat - 48) = c.toNat by omega
  rw [Nat.toDigits_of_lt_base hlt, Char.toNat_inj.1 hsame]

theorem head?_toDigits {n : Nat} (h : 1 ≤ n) : (Nat.toDigits 10 n).head? ≠ some '0' := by
  induction n using Nat.strongRecOn with
  | ind n ih =>
    by_cases hn : n < 10
    · rw [Nat.toDigits_of_lt_base hn, List.head?_singleton]
      intro hzero
      have hn := Nat.digitChar_eq_zero.1 (Option.some.inj hzero)
      omega
    · rw [Nat.toDigits_of_base_le (by decide) (Nat.not_lt.1 hn),
        List.head?_append_of_ne_nil _ Nat.toDigits_ne_nil]
      exact ih (n / 10) (by omega) (by omega)

/-- Digits without leading zeros are the decimal text of their value. -/
theorem toDigits_digitsValue {ds : List Char} (hne : ds ≠ []) (hds : ∀ c ∈ ds, c.isDigit = true)
    (hhead : ds.head? ≠ some '0') : Nat.toDigits 10 (digitsValue ds) = ds := by
  induction ds using List.reverseRecOn with
  | nil => exact absurd rfl hne
  | append_singleton ds c ih =>
    obtain ⟨hds, hc⟩ := List.forall_mem_append.1 hds
    have hc : c.isDigit = true := hc c (List.mem_singleton.2 rfl)
    cases ds with
    | nil => simpa [digitsValue] using toDigits_digit hc
    | cons d ds =>
      have hfront := ih (by simp) hds (by simpa using hhead)
      have hpos : 0 < digitsValue (d :: ds) := by
        refine Nat.pos_of_ne_zero fun hzero => ?_
        rw [hzero, Nat.toDigits_zero] at hfront
        simp [← hfront] at hhead
      have hlt : c.toNat - '0'.toNat < 10 := by
        have hle : c.toNat ≤ 57 := (Char.isDigit_iff_toNat.1 hc).2
        exact show c.toNat - 48 < 10 by omega
      have happend := Nat.toDigits_append_toDigits (b := 10) (by decide) hpos hlt
      rw [hfront, toDigits_digit hc] at happend
      rw [digitsValue_append, happend]
      simp [digitsValue]

/-! ## Texts without an exponent -/

/-- The text is digits with or without a point behind some of them, and `d` is its numeral. -/
inductive Spells : List Char → Decimal → Prop
  | whole {ws} : ws ≠ [] → (∀ c ∈ ws, c.isDigit = true) → Spells ws ⟨digitsValue ws, 0⟩
  | fraction {ws fs} : ws ≠ [] → (∀ c ∈ ws, c.isDigit = true) → (∀ c ∈ fs, c.isDigit = true) →
      Spells (ws ++ '.' :: fs) ⟨digitsValue (ws ++ fs), -fs.length⟩

variable {cs rest : List Char} {d : Decimal}

/-- Nothing that could go on with the digits of a numeral. -/
def EndsDigits (rest : List Char) : Prop :=
  ∀ c ∈ rest.head?, c.isDigit = false ∧ c ≠ '.'

theorem EndsDigits.splitFraction_eq (h : EndsDigits rest) : splitFraction rest = ([], rest) := by
  unfold splitFraction
  split
  · exact absurd rfl (h '.' rfl).2
  · rfl

theorem EndsDigits.read?_eq_none (h : EndsDigits rest) : Decimal.read? rest = none := by
  cases rest with
  | nil => rfl
  | cons c cs =>
    have hdigit : ¬c.isDigit = true := by simp [(h c rfl).1]
    rw [Decimal.read?, List.dropWhile_cons_of_neg hdigit, h.splitFraction_eq,
      List.takeWhile_cons_of_neg hdigit]
    rfl

theorem Spells.read?_append (h : Spells cs d) (hrest : EndsDigits rest) :
    Decimal.read? (cs ++ rest) =
      (readExponent? rest).map fun e => ⟨d.coefficient, d.exponent + e⟩ := by
  have hdigit : ∀ c ∈ rest.head?, c.isDigit = false := fun c hc => (hrest c hc).1
  cases h with
  | @whole ws hne hw =>
    obtain ⟨ht, hd⟩ := span_append hw hdigit
    simp [Decimal.read?, ht, hd, hrest.splitFraction_eq, hne]
  | @fraction ws fs hne hw hf =>
    have hpoint : ∀ c ∈ ('.' :: (fs ++ rest)).head?, c.isDigit = false := by simp
    obtain ⟨ht, hd⟩ := span_append hw hpoint
    obtain ⟨ht', hd'⟩ := span_append hf hdigit
    simp [Decimal.read?, ht, hd, splitFraction, ht', hd', hne, Int.sub_eq_add_neg, Int.add_comm]

theorem Spells.read? (h : Spells cs d) : Decimal.read? cs = some d := by
  have hnil : EndsDigits [] := by simp [EndsDigits]
  have hr := h.read?_append hnil
  simpa [readExponent?] using hr

theorem Spells.exists_digit (h : Spells cs d) :
    ∃ c cs', cs = c :: cs' ∧ c.isDigit = true := by
  cases h with
  | whole hne hw =>
    obtain ⟨c, ws, rfl⟩ := List.exists_cons_of_ne_nil hne
    exact ⟨c, ws, rfl, hw c List.mem_cons_self⟩
  | fraction hne hw =>
    obtain ⟨c, ws, rfl⟩ := List.exists_cons_of_ne_nil hne
    exact ⟨c, _, rfl, hw c List.mem_cons_self⟩

theorem Spells.isDigit_or_point (h : Spells cs d) {c : Char} (hc : c ∈ cs) :
    c.isDigit = true ∨ c = '.' := by
  cases h with
  | whole hne hw => exact .inl (hw c hc)
  | fraction hne hw hf =>
    rcases List.mem_append.1 hc with hc | hc
    · exact .inl (hw c hc)
    rcases List.mem_cons.1 hc with rfl | hc
    · exact .inr rfl
    · exact .inl (hf c hc)

theorem ne_exponent_of_digit_or_point {c : Char} (h : c.isDigit = true ∨ c = '.') :
    c ≠ 'e' ∧ c ≠ 'E' := by
  constructor
  all_goals
    rintro rfl
    rcases h with h | h <;> cases h

theorem Spells.ne_exponent (h : Spells cs d) {c : Char} (hc : c ∈ cs) : c ≠ 'e' ∧ c ≠ 'E' :=
  ne_exponent_of_digit_or_point (h.isDigit_or_point hc)

/-- Every piece from the start on is a numeral too, of no larger value. -/
theorem Spells.of_append {p q : List Char} (h : Spells (p ++ q) d) (hp : p ≠ []) :
    ∃ d', Spells p d' ∧ d'.index ≤ d.index := by
  generalize hcs : p ++ q = cs at h
  cases h with
  | whole hne hw =>
    subst hcs
    refine ⟨_, .whole hp fun c hc => hw c (List.mem_append_left q hc), index_le_index ?_⟩
    simpa using digitsValue_le p q
  | @fraction ws fs hne hw hf =>
    rcases List.append_eq_append_iff.1 hcs with ⟨q', rfl, -⟩ | ⟨p', rfl, hq⟩
    · -- The piece ends in front of the point.
      refine ⟨_, .whole hp fun c hc => hw c (List.mem_append_left q' hc), index_le_index ?_⟩
      have hle := Nat.le_trans (Nat.mul_le_mul_left (10 ^ fs.length) (digitsValue_le p q'))
        (mul_digitsValue_le (p ++ q') fs)
      simpa [Nat.mul_comm] using hle
    · cases p' with
      | nil =>
        -- It ends with the last digit in front of the point.
        rw [List.append_nil]
        refine ⟨_, .whole hne hw, index_le_index ?_⟩
        simpa [Nat.mul_comm] using mul_digitsValue_le ws fs
      | cons c p' =>
        -- It ends behind the point.
        obtain ⟨rfl, rfl⟩ := List.cons.inj hq
        refine ⟨_, .fraction hne hw fun c hc => hf c (List.mem_append_left q hc),
          index_le_index_places ?_⟩
        calc digitsValue (ws ++ p') * 10 ^ (p' ++ q).length
            = 10 ^ q.length * digitsValue (ws ++ p') * 10 ^ p'.length := by
              rw [List.length_append, Nat.pow_add, Nat.mul_comm, Nat.mul_assoc,
                Nat.mul_comm (10 ^ p'.length)]
          _ ≤ digitsValue (ws ++ p' ++ q) * 10 ^ p'.length :=
              Nat.mul_le_mul_right _ (mul_digitsValue_le (ws ++ p') q)
          _ = digitsValue (ws ++ (p' ++ q)) * 10 ^ p'.length := by rw [List.append_assoc]

end CellFormula.Number
