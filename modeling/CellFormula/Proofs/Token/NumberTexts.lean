import CellFormula.Proofs.Token.Cuts
import CellFormula.Proofs.Token.Segmentation
/-!
# Texts that are numbers

A text can be read as a number by its whole, or be cut into tokens that turn out to be a single number.
`number_readers_agree` says that both find the same number where both find one. The scanner looks at each
start of the text and goes on only while that is finite, so it needs the digits in front of an exponent to
be finite on their own; from there on no start of the exponent leads further up than the whole one.
-/

namespace CellFormula

open Number Segment

/-! ## Whole texts -/

section Reading
variable {text : String} {c : Char} {cs : List Char} {x : Float}

/-- A text that starts with a digit is read as a number exactly if it is a numeral. -/
theorem parseNumber?_eq_some (htext : text.toList = c :: cs) (hc : c.isDigit = true) :
    parseNumber? text = some x ↔ ∃ numeral, Numeral (c :: cs) numeral ∧ x = numeral.toFloat false := by
  have hword : c :: cs ≠ infinityWord := by
    intro h
    cases h
    cases hc
  rw [parseNumber?, htext, splitSign_of_digit hc]
  dsimp only
  rw [if_neg hword, Option.map_eq_some_iff]
  simp only [read?_eq_some hc, eq_comm (a := x)]

/-- The text in front of the first exponent mark. -/
def beforeMark (text : String) : String :=
  .ofList (text.toList.takeWhile fun c => !(c == 'e' || c == 'E'))

theorem toList_beforeMark {front tail : List Char} {d : Decimal} {e : Int} (hfront : Spells front d)
    (htail : SpellsExponent tail e) (htext : text.toList = front ++ tail) :
    (beforeMark text).toList = front := by
  rw [beforeMark, String.toList_ofList, htext, htail.takeWhile_append fun _ => hfront.ne_exponent]

end Reading

/-! ## Growing through a numeral -/

/-- A number in front of an exponent grows through all of it if it is finite before and afterwards. -/
theorem growNumber_exponent {front tail : List Char} {d : Decimal} {e : Int} (hfront : Spells front d)
    (htail : SpellsExponent tail e) (hfin : d.index < infinity)
    (hfin' : (Decimal.mk d.coefficient (d.exponent + e)).index < infinity) :
    growNumber front false tail = (front ++ tail, []) := by
  by_cases hnil : tail = []
  · rw [hnil, growNumber_of_stops (.inl rfl), List.append_nil]
  obtain ⟨start, ds, rfl, hstart, hds, hshorter⟩ := htail.exists_start hnil
  have hdigit : StartsWithDigit front := hfront.exists_digit
  -- A shorter exponent makes the number no larger than it is with none, or with the whole one.
  have hgrown : ∀ p, p <+: ds → ∃ v, finiteNumeral? (front ++ start ++ p) = some v := by
    intro p hp
    obtain ⟨e', he', hle⟩ := hshorter p hp
    rw [List.append_assoc]
    refine ⟨_, (finiteNumeral?_eq_some hdigit.append).2 ⟨.mk hfront he', ?_⟩⟩
    rcases hle with hle | hle
    · exact Nat.lt_of_le_of_lt (index_le_index_exponent (by omega)) hfin
    · exact Nat.lt_of_le_of_lt (index_le_index_exponent (by omega)) hfin'
  obtain ⟨v, hv⟩ := hgrown [] List.nil_prefix
  rw [List.append_nil] at hv
  have hmark : ∀ c ∈ ds, c ≠ 'e' ∧ c ≠ 'E' := fun c hc =>
    ne_exponent_of_digit_or_point (.inl (hds c hc))
  rw [growNumber]
  simp only [numberPiece_of_startsExponent hstart ds, dif_neg hstart.ne_nil, hv, List.drop_left]
  have hgrow : ∀ hasExponent, growNumber (front ++ start) hasExponent (ds ++ []) =
      growNumber (front ++ start ++ ds) hasExponent [] := fun _ =>
    growNumber_characters hmark hgrown
  rw [List.append_nil] at hgrow
  rw [hgrow, growNumber_of_stops (.inl rfl), List.append_assoc]

/-! ## Both readers -/

/-- A text without blanks that is cut into a single number is the lexeme of that number. -/
theorem lexeme_of_tokenize {d : Dialect} {text : String} {x : Float} {p : Nat}
    (hblank : ∀ c ∈ text.toList, Text.isBlank c = false)
    (h : tokenize d text = .ok [⟨.number x, 0⟩, ⟨.endOfInput, p⟩]) :
    Lexeme d (.number x) text.toList [] := by
  obtain ⟨q, hend, hts⟩ := tokenize_eq_ok.1 h
  obtain ⟨gs, last, hrest, hlast, hrow, hgs, -⟩ := row_of_scanAll hend
  rw [hgs, ← List.singleton_append] at hts
  obtain ⟨hnumber, -⟩ := List.append_inj' hts rfl
  obtain ⟨g, rfl, hg⟩ := List.map_eq_singleton_iff.1 hnumber.symm
  have hfits := hrow.1
  have htext : text.toList = g.blanks ++ g.lexeme ++ last := by
    simpa [Cursor.start, chars] using hrest
  rw [htext] at hblank ⊢
  obtain ⟨hfront, hbehind⟩ := List.forall_mem_append.1 hblank
  obtain rfl := eq_nil_of_allBlank hlast hbehind
  have hblanks := eq_nil_of_allBlank hfits.allBlank fun c hc => hfront c (List.mem_append_left _ hc)
  have hlexeme := hfits.lexeme
  rw [hg] at hlexeme
  simpa [hblanks] using hlexeme

/-- A numeral that is finite, and so in front of its exponent, is cut into a single number. -/
theorem tokenize_numeral (d : Dialect) {text : String} {front tail : List Char} {f : Decimal} {e : Int}
    (htext : text.toList = front ++ tail) (hfront : Spells front f) (htail : SpellsExponent tail e)
    (hfin : f.index < infinity)
    (hfin' : (Decimal.mk f.coefficient (f.exponent + e)).index < infinity) :
    tokenize d text =
      .ok [⟨.number ((Decimal.mk f.coefficient (f.exponent + e)).toFloat false), 0⟩,
        ⟨.endOfInput, text.length⟩] := by
  obtain ⟨c, cs, rfl, hc⟩ := hfront.exists_digit
  have hgrow : growNumber [c] false (cs ++ tail) = (c :: (cs ++ tail), []) := by
    rw [growNumber_spells (by simp) hfront hfin]
    exact growNumber_exponent hfront htail hfin hfin'
  have hnumeral : Numeral (c :: cs ++ tail) ⟨f.coefficient, f.exponent + e⟩ := .mk hfront htail
  have hnext := next_number (d := d) 0 hc (List.append_nil _).symm hgrow hnumeral.read?
  have hlen : 0 + (c :: (cs ++ tail)).length = text.length := by
    rw [Nat.zero_add, ← String.length_toList, htext, List.cons_append]
  rw [hlen] at hnext
  refine tokenize_eq_ok.2 ⟨text.length, ?_⟩
  rw [Cursor.start, htext, List.cons_append, scanAll_token hnext (by simp),
    scanAll_end (Cursor.next_nil d text.length)]
  exact ⟨rfl, rfl⟩

/-- A text without blanks that is cut into a single number is read as this number. The other way round, a
text that starts with a digit and is read as a finite number is cut into a single token with this number,
if the part in front of the exponent is read as a finite number too. -/
theorem number_readers_agree (d : Dialect) (text : String) :
    (∀ x p, (∀ c ∈ text.toList, Text.isBlank c = false) →
      tokenize d text = .ok [⟨.number x, 0⟩, ⟨.endOfInput, p⟩] → parseNumber? text = some x) ∧
    (∀ c cs x y, text.toList = c :: cs → c.isDigit = true → parseNumber? text = some x →
      x.isFinite = true → parseNumber? (beforeMark text) = some y → y.isFinite = true →
      tokenize d text = .ok [⟨.number x, 0⟩, ⟨.endOfInput, text.length⟩]) := by
  constructor
  · intro x p hblank htokens
    have hlexeme := lexeme_of_tokenize hblank htokens
    generalize htext : text.toList = cs at hlexeme
    cases hlexeme with
    | number hc hnumeral hx =>
      exact (parseNumber?_eq_some htext hc).2 ⟨_, hnumeral, hx.eq_toFloat⟩
  · intro c cs x y htext hc hx hxfin hy hyfin
    obtain ⟨numeral, hnumeral, rfl⟩ := (parseNumber?_eq_some htext hc).1 hx
    rw [← htext] at hnumeral
    generalize hcs : text.toList = whole at hnumeral
    obtain ⟨hfront, htail⟩ := hnumeral
    obtain ⟨c', fs, rfl, hc'⟩ := hfront.exists_digit
    obtain ⟨f, hf, rfl⟩ := (parseNumber?_eq_some (toList_beforeMark hfront htail hcs) hc').1 hy
    have hsame := hf.read?.symm.trans hfront.read?
    cases hsame
    exact tokenize_numeral d hcs hfront htail (isFinite_toFloat.1 hyfin) (isFinite_toFloat.1 hxfin)

/-- A numeral with a signed exponent, and one near the largest number. -/
theorem number_readers_agree_with_exponents :
    ((∀ c ∈ "12.50e+3".toList, Text.isBlank c = false) ∧
      tokenize .standard "12.50e+3" = .ok [⟨.number 12500, 0⟩, ⟨.endOfInput, 8⟩] ∧
      parseNumber? "12.50e+3" = some 12500) ∧
    ("1.5e308".toList = '1' :: ".5e308".toList ∧ '1'.isDigit = true ∧
      parseNumber? "1.5e308" = some 1.5e308 ∧ (1.5e308 : Float).isFinite = true ∧
      parseNumber? (beforeMark "1.5e308") = some 1.5 ∧ (1.5 : Float).isFinite = true ∧
      tokenize .standard "1.5e308" = .ok [⟨.number 1.5e308, 0⟩, ⟨.endOfInput, 7⟩]) := by
  have hblank : ∀ c ∈ "12.50e+3".toList, Text.isBlank c = false := by simp [Text.isBlank]
  have htokens : tokenize .standard "12.50e+3" =
    .ok [⟨.number 12500, 0⟩, ⟨.endOfInput, 8⟩] := by decide +kernel
  have hwhole : parseNumber? "1.5e308" = some 1.5e308 := by decide +kernel
  have hfin : (1.5e308 : Float).isFinite = true := by decide +kernel
  have hfront : parseNumber? (beforeMark "1.5e308") = some 1.5 := by decide +kernel
  have hfin' : (1.5 : Float).isFinite = true := by decide +kernel
  exact ⟨⟨hblank, htokens, (number_readers_agree .standard "12.50e+3").1 _ _ hblank htokens⟩,
    rfl, rfl, hwhole, hfin, hfront, hfin',
    (number_readers_agree .standard "1.5e308").2 _ _ _ _ rfl rfl hwhole hfin hfront hfin'⟩

end CellFormula
