import CellFormula.Proofs.Number.Decimal
/-!
# Numerals

`Numeral` describes the unsigned numerals that start with a digit: digits with an optional point, and
an optional exponent behind them. `read?_eq_some` says that the reader accepts exactly these texts
among those that start with a digit, and finds their coefficient and exponent.
-/

namespace CellFormula.Number

/-! ## Exponents -/

/-- The text is empty or an exponent with this value: a mark, an optional sign and digits. -/
inductive SpellsExponent : List Char → Int → Prop
  | absent : SpellsExponent [] 0
  | unsigned {mark ds} : (mark = 'e' ∨ mark = 'E') → ds ≠ [] → (∀ c ∈ ds, c.isDigit = true) →
      SpellsExponent (mark :: ds) (digitsValue ds)
  | positive {mark ds} : (mark = 'e' ∨ mark = 'E') → ds ≠ [] → (∀ c ∈ ds, c.isDigit = true) →
      SpellsExponent (mark :: '+' :: ds) (digitsValue ds)
  | negative {mark ds} : (mark = 'e' ∨ mark = 'E') → ds ≠ [] → (∀ c ∈ ds, c.isDigit = true) →
      SpellsExponent (mark :: '-' :: ds) (-digitsValue ds)

theorem readDigits?_eq_some {cs : List Char} {n : Nat} :
    readDigits? cs = some n ↔ cs ≠ [] ∧ (∀ c ∈ cs, c.isDigit = true) ∧ n = digitsValue cs := by
  rw [readDigits?, Option.ite_none_right_eq_some, List.all_eq_true, Option.some.injEq, and_assoc,
    eq_comm (a := n)]

theorem splitSign_cons {c : Char} {cs : List Char} (hminus : c ≠ '-') (hplus : c ≠ '+') :
    splitSign (c :: cs) = (false, c :: cs) := by
  unfold splitSign
  split
  · rename_i h
    exact absurd (List.cons.inj h).1 hminus
  · rename_i h
    exact absurd (List.cons.inj h).1 hplus
  · rfl

theorem splitSign_of_digit {c : Char} {cs : List Char} (hc : c.isDigit = true) :
    splitSign (c :: cs) = (false, c :: cs) :=
  splitSign_cons (by rintro rfl; cases hc) (by rintro rfl; cases hc)

theorem splitSign_digits {cs : List Char} (h : ∀ c ∈ cs, c.isDigit = true) :
    splitSign cs = (false, cs) := by
  cases cs with
  | nil => rfl
  | cons c cs => exact splitSign_of_digit (h c List.mem_cons_self)

theorem readExponent?_eq_some {cs : List Char} {e : Int} :
    readExponent? cs = some e ↔ SpellsExponent cs e := by
  constructor
  · intro h
    cases cs with
    | nil =>
      cases h
      exact .absent
    | cons mark cs =>
      simp only [readExponent?, Option.ite_none_right_eq_some] at h
      obtain ⟨hmark, h⟩ := h
      obtain ⟨i, hi, rfl⟩ := Option.map_eq_some_iff.1 h
      obtain ⟨n, hn, hni⟩ := Option.bind_eq_some_iff.1 hi
      cases hni
      obtain ⟨hne, hds, rfl⟩ := readDigits?_eq_some.1 hn
      revert hne hds
      unfold splitSign
      split
      · exact .negative hmark
      · exact .positive hmark
      · exact .unsigned hmark
  · intro h
    cases h with
    | absent => rfl
    | unsigned hmark hne hds =>
      simp [readExponent?, hmark, splitSign_digits hds, readDigits?_eq_some.2 ⟨hne, hds, rfl⟩]
    | positive hmark hne hds =>
      simp [readExponent?, hmark, splitSign, readDigits?_eq_some.2 ⟨hne, hds, rfl⟩]
    | negative hmark hne hds =>
      simp [readExponent?, hmark, splitSign, readDigits?_eq_some.2 ⟨hne, hds, rfl⟩]

theorem SpellsExponent.endsDigits {cs : List Char} {e : Int} (h : SpellsExponent cs e) :
    EndsDigits cs := by
  intro c hc
  cases h with
  | absent => cases hc
  | unsigned hmark | positive hmark | negative hmark =>
    cases hc
    rcases hmark with rfl | rfl <;> decide

/-- What stands in front of an exponent goes up to its mark. -/
theorem SpellsExponent.takeWhile_append {front tail : List Char} {e : Int} (htail : SpellsExponent tail e)
    (hfront : ∀ c ∈ front, c ≠ 'e' ∧ c ≠ 'E') :
    ((front ++ tail).takeWhile fun c => !(c == 'e' || c == 'E')) = front := by
  have hbefore : ∀ c ∈ front, (!(c == 'e' || c == 'E')) = true := fun c hc => by simpa using hfront c hc
  have hmark : ∀ c ∈ tail.head?, (!(c == 'e' || c == 'E')) = false := by
    intro c hc
    cases htail with
    | absent => cases hc
    | unsigned hmark | positive hmark | negative hmark =>
      cases hc
      rcases hmark with rfl | rfl <;> rfl
  exact (span_append hbefore hmark).1

/-- An exponent mark and its first digit, with or without a sign between them. -/
inductive StartsExponent : List Char → Prop
  | unsigned {mark d} : (mark = 'e' ∨ mark = 'E') → d.isDigit = true → StartsExponent [mark, d]
  | signed {mark sign d} : (mark = 'e' ∨ mark = 'E') → (sign = '+' ∨ sign = '-') →
      d.isDigit = true → StartsExponent [mark, sign, d]

theorem StartsExponent.ne_nil {cs : List Char} (h : StartsExponent cs) : cs ≠ [] := by
  cases h <;> simp

/-- An exponent is its start and more digits. With some of the digits left out at the end it is an
exponent too, and a larger one only if it is negative. -/
theorem SpellsExponent.exists_start {cs : List Char} {e : Int} (h : SpellsExponent cs e)
    (htail : cs ≠ []) : ∃ start ds, cs = start ++ ds ∧ StartsExponent start ∧
      (∀ c ∈ ds, c.isDigit = true) ∧
      ∀ p, p <+: ds → ∃ e', SpellsExponent (start ++ p) e' ∧ (e' ≤ 0 ∨ e' ≤ e) := by
  cases h with
  | absent => exact absurd rfl htail
  | @unsigned mark ds hmark hne hds =>
    obtain ⟨d, ds, rfl⟩ := List.exists_cons_of_ne_nil hne
    obtain ⟨hd, hds⟩ := List.forall_mem_cons.1 hds
    refine ⟨[mark, d], ds, rfl, .unsigned hmark hd, hds, ?_⟩
    rintro p ⟨q, rfl⟩
    have hp := fun c hc => hds c (List.mem_append_left q hc)
    refine ⟨_, .unsigned hmark (by simp) (List.forall_mem_cons.2 ⟨hd, hp⟩), .inr ?_⟩
    exact_mod_cast digitsValue_le (d :: p) q
  | @positive mark ds hmark hne hds =>
    obtain ⟨d, ds, rfl⟩ := List.exists_cons_of_ne_nil hne
    obtain ⟨hd, hds⟩ := List.forall_mem_cons.1 hds
    refine ⟨[mark, '+', d], ds, rfl, .signed hmark (.inl rfl) hd, hds, ?_⟩
    rintro p ⟨q, rfl⟩
    have hp := fun c hc => hds c (List.mem_append_left q hc)
    refine ⟨_, .positive hmark (by simp) (List.forall_mem_cons.2 ⟨hd, hp⟩), .inr ?_⟩
    exact_mod_cast digitsValue_le (d :: p) q
  | @negative mark ds hmark hne hds =>
    obtain ⟨d, ds, rfl⟩ := List.exists_cons_of_ne_nil hne
    obtain ⟨hd, hds⟩ := List.forall_mem_cons.1 hds
    refine ⟨[mark, '-', d], ds, rfl, .signed hmark (.inr rfl) hd, hds, ?_⟩
    rintro p ⟨q, rfl⟩
    have hp := fun c hc => hds c (List.mem_append_left q hc)
    refine ⟨_, .negative hmark (by simp) (List.forall_mem_cons.2 ⟨hd, hp⟩), .inl ?_⟩
    omega

/-! ## Whole numerals -/

/-- The text is digits with an optional point and an optional exponent, and `d` is its numeral. -/
inductive Numeral : List Char → Decimal → Prop
  | mk {front tail d e} : Spells front d → SpellsExponent tail e →
      Numeral (front ++ tail) ⟨d.coefficient, d.exponent + e⟩

theorem Numeral.read? {cs : List Char} {d : Decimal} (h : Numeral cs d) :
    Decimal.read? cs = some d := by
  obtain ⟨hfront, htail⟩ := h
  rw [hfront.read?_append htail.endsDigits, readExponent?_eq_some.2 htail]
  rfl

theorem spells_of_splitFraction {ws cs fs rest : List Char} (hne : ws ≠ [])
    (hws : ∀ c ∈ ws, c.isDigit = true) (h : splitFraction cs = (fs, rest)) :
    ∃ front, Spells front ⟨digitsValue (ws ++ fs), -fs.length⟩ ∧ ws ++ cs = front ++ rest := by
  unfold splitFraction at h
  split at h
  · rename_i cs'
    cases h
    refine ⟨_, .fraction hne hws fun c hc => List.mem_takeWhile_imp hc, ?_⟩
    rw [List.append_assoc, List.cons_append, List.takeWhile_append_dropWhile]
  · cases h
    refine ⟨ws, ?_, rfl⟩
    simpa using Spells.whole hne hws

/-- The reader finds the value of a numeral, and among the texts that start with a digit it accepts
nothing else. -/
theorem read?_eq_some {c : Char} {cs : List Char} {d : Decimal} (hc : c.isDigit = true) :
    Decimal.read? (c :: cs) = some d ↔ Numeral (c :: cs) d := by
  refine ⟨fun h => ?_, Numeral.read?⟩
  have hne : (c :: cs).takeWhile Char.isDigit ≠ [] := by simp [hc]
  have hws : ∀ c' ∈ (c :: cs).takeWhile Char.isDigit, c'.isDigit = true :=
    fun _ hc' => List.mem_takeWhile_imp hc'
  have hwhole := List.takeWhile_append_dropWhile (p := Char.isDigit) (l := c :: cs)
  unfold Decimal.read? at h
  dsimp only at h
  obtain ⟨⟨fs, rest⟩, hsplit⟩ :
      ∃ split, splitFraction ((c :: cs).dropWhile Char.isDigit) = split := ⟨_, rfl⟩
  obtain ⟨front, hfront, htext⟩ := spells_of_splitFraction hne hws hsplit
  simp only [hsplit, hne, false_and, if_false] at h
  obtain ⟨e, he, rfl⟩ := Option.map_eq_some_iff.1 h
  have hnumeral := Numeral.mk hfront (readExponent?_eq_some.1 he)
  rw [← htext, hwhole] at hnumeral
  rwa [Int.sub_eq_add_neg, Int.add_comm]

end CellFormula.Number
