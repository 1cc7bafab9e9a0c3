import CellFormula.Proofs.Number.Order
import CellFormula.Proofs.Number.Significant
import CellFormula.Proofs.Token.Lexeme
import CellFormula.Value.Coercion
/-!
# Numbers and their texts

A number is written as an optional sign and either the word for infinity or the text of the shortest
numeral that is rounded to its magnitude. All of this is read back, so a number other than NaN survives
its text, and no other text that is read as the number has fewer significant digits.
-/

namespace CellFormula

open Number

/-! ## Texts of numbers -/

namespace Number

/-- The sign in front of a text. -/
def signChars (negative : Bool) : List Char :=
  if negative then ['-'] else []

section Texts
variable {x : Float}

theorem toList_formatNumber_of_finite (h : index x < infinity) :
    (formatNumber x).toList = signChars (isNegative x) ++ (shortest (index x)).positional := by
  rw [formatNumber, String.toList_ofList, Style.write, if_neg h.not_gt, if_neg h.ne, signChars]
  cases isNegative x <;> rfl

theorem toList_formatNumber_of_infinite (h : index x = infinity) :
    (formatNumber x).toList = signChars (isNegative x) ++ infinityWord := by
  rw [formatNumber, String.toList_ofList, Style.write, if_neg h.not_gt, if_pos h, signChars]
  cases isNegative x <;> rfl

theorem formatNumber_of_nan (h : infinity < index x) : formatNumber x = "NaN" := by
  rw [formatNumber, Style.write, if_pos h]

theorem splitSign_signChars (negative : Bool) {c : Char} {cs : List Char} (hminus : c ≠ '-')
    (hplus : c ≠ '+') : splitSign (signChars negative ++ c :: cs) = (negative, c :: cs) := by
  cases negative with
  | true => rfl
  | false => exact splitSign_cons hminus hplus

/-- Every number other than NaN is read back from its text. -/
theorem parseNumber?_formatNumber (h : index x ≤ infinity) : parseNumber? (formatNumber x) = some x := by
  rcases h.lt_or_eq with hlt | heq
  · obtain ⟨d, hspells, hindex⟩ := spells_shortest hlt
    obtain ⟨c, cs, hcs, hc⟩ := hspells.exists_digit
    have hsplit : splitSign (signChars (isNegative x) ++ c :: cs) = (isNegative x, c :: cs) :=
      splitSign_signChars (isNegative x) (by rintro rfl; cases hc) (by rintro rfl; cases hc)
    have hword : c :: cs ≠ infinityWord := by
      intro hword
      cases hword
      cases hc
    rw [hcs] at hspells
    rw [parseNumber?, toList_formatNumber_of_finite hlt, hcs, hsplit]
    dsimp only
    rw [if_neg hword, hspells.read?, Option.map_some, Decimal.toFloat, hindex, ofIndex_index]
  · have hsplit : splitSign (signChars (isNegative x) ++ infinityWord) = (isNegative x, infinityWord) :=
      splitSign_signChars (isNegative x) (by decide) (by decide)
    rw [parseNumber?, toList_formatNumber_of_infinite heq, hsplit]
    dsimp only
    rw [if_pos rfl, ← heq, ofIndex_index]

/-- A text that is read as a finite number is a numeral that is rounded to its magnitude. -/
theorem exists_numeral {text : String} (hfin : index x < infinity) (h : parseNumber? text = some x) :
    ∃ d, Decimal.read? (splitSign text.toList).2 = some d ∧ d.index = index x := by
  unfold parseNumber? at h
  dsimp only at h
  split at h
  · cases h
    rw [index_ofIndex le_rfl] at hfin
    exact absurd hfin (Nat.lt_irrefl _)
  · obtain ⟨d, hd, rfl⟩ := Option.map_eq_some_iff.1 h
    have hle : d.index ≤ infinity := by
      rw [d.index_eq]
      exact Nat.min_le_left ..
    exact ⟨d, hd, (index_ofIndex hle).symm⟩

theorem significantDigits_signChars (negative : Bool) (cs : List Char) :
    significantDigits (signChars negative ++ cs) = significantDigits cs := by
  cases negative <;> rfl

/-- The text of a finite number has the fewest significant digits of all texts that are read as it. -/
theorem length_significantDigits_formatNumber_le {text : String} (hfin : index x < infinity)
    (h : parseNumber? text = some x) :
    (significantDigits (formatNumber x).toList).length ≤ (significantDigits text.toList).length := by
  obtain ⟨d, hread, hindex⟩ := exists_numeral hfin h
  have hle := length_significantDigits_shortest_le hfin hread hindex
  rw [significantDigits_splitSign] at hle
  rwa [toList_formatNumber_of_finite hfin, significantDigits_signChars]

theorem isBlank_eq_false_of_mem_formatNumber (h : index x ≤ infinity) :
    ∀ c ∈ (formatNumber x).toList, Text.isBlank c = false := by
  have hsign : ∀ c ∈ signChars (isNegative x), Text.isBlank c = false := by
    cases isNegative x with
    | true => exact List.forall_mem_singleton.2 rfl
    | false => exact nofun
  rcases h.lt_or_eq with hlt | heq
  · obtain ⟨d, hspells, -⟩ := spells_shortest hlt
    rw [toList_formatNumber_of_finite hlt]
    refine List.forall_mem_append.2 ⟨hsign, fun c hc => ?_⟩
    rcases hspells.isDigit_or_point hc with hdigit | rfl
    · exact isBlank_eq_false_of_isDigit hdigit
    · rfl
  · have hword : infinityWord.all (fun c => !Text.isBlank c) = true := by decide +kernel
    rw [toList_formatNumber_of_infinite heq]
    exact List.forall_mem_append.2 ⟨hsign, by simpa using hword⟩

end Texts

/-- A number starts with a sign, a digit, a point or the word for infinity. -/
theorem parseNumber?_eq_none {text : String} {c : Char} (hfirst : text.toList.head? = some c)
    (hdigit : c.isDigit = false) (hc : c ∉ ['-', '+', '.', 'I']) : parseNumber? text = none := by
  obtain ⟨cs, hcs⟩ := List.head?_eq_some_iff.1 hfirst
  simp only [List.mem_cons, List.not_mem_nil, or_false, not_or] at hc
  obtain ⟨hminus, hplus, hpoint, hinfinity⟩ := hc
  have hends : EndsDigits (c :: cs) := by
    rintro _ ⟨⟩
    exact ⟨hdigit, hpoint⟩
  have hword : c :: cs ≠ infinityWord := fun h => hinfinity (List.cons.inj h).1
  rw [parseNumber?, hcs, splitSign_cons hminus hplus]
  dsimp only
  rw [if_neg hword, hends.read?_eq_none, Option.map_none]

end Number

/-! ## Numbers of texts -/

namespace Value

theorem toNumber_text {text : String} (h : ∀ c ∈ text.toList, Text.isBlank c = false) (hne : text ≠ "") :
    toNumber (.text text) = (parseNumber? text).getD nan := by
  rw [toNumber, Text.trim_of_no_blank h]
  exact if_neg hne

/-- Every number other than NaN survives its text, as a text and as a value. The text of a finite number
is a plain numeral behind its sign, and no text that is read as this number has fewer significant digits.
The text of NaN is no number. -/
theorem numbers_survive_their_texts (x : Float) :
    (x.isNaN = false → parseNumber? (formatNumber x) = some x ∧
      toNumber (.text (toText (.number x))) = x) ∧
    (x.isFinite = true →
      (∃ body, (formatNumber x).toList = signChars (isNegative x) ++ body ∧ IsPlain body) ∧
      ∀ text, parseNumber? text = some x →
        (significantDigits (formatNumber x).toList).length ≤ (significantDigits text.toList).length) ∧
    (x.isNaN = true → formatNumber x = "NaN" ∧ parseNumber? (formatNumber x) = none ∧
      (toNumber (.text (toText (.number x)))).isNaN = true) := by
  refine ⟨fun hnan => ?_, fun hfin => ?_, fun hnan => ?_⟩
  · have hle := isNaN_eq_false_iff.1 hnan
    have hread := parseNumber?_formatNumber hle
    have hne : formatNumber x ≠ "" := by
      intro hempty
      rw [hempty] at hread
      cases hread
    refine ⟨hread, ?_⟩
    rw [toText, toNumber_text (isBlank_eq_false_of_mem_formatNumber hle) hne, hread, Option.getD_some]
  · have hlt := isFinite_iff.1 hfin
    refine ⟨⟨_, toList_formatNumber_of_finite hlt, isPlain_shortest _⟩, fun text htext => ?_⟩
    exact length_significantDigits_formatNumber_le hlt htext
  · have htext := formatNumber_of_nan (isNaN_iff.1 hnan)
    rw [toText, htext]
    exact ⟨rfl, by decide +kernel, by decide +kernel⟩

end Value

end CellFormula
