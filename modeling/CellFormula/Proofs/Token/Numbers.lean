import CellFormula.Proofs.Token.Lexeme
/-!
# Numbers in texts

A number grows from a digit by pieces: single characters, and an exponent mark together with its first
digit. `next_number_is_maximal` says that what is taken is the spelling of a finite number, and that with
the next piece it is none.
-/

namespace CellFormula

open Number

/-! ## Spellings of finite numbers -/

/-- The text is a numeral that rounds to a finite number. -/
def SpellsFinite (cs : List Char) : Prop :=
  ∃ numeral x, Numeral cs numeral ∧ numeral.RoundsTo x

/-- Numbers grow from a digit. -/
def StartsWithDigit (cs : List Char) : Prop :=
  ∃ c ds, cs = c :: ds ∧ c.isDigit = true

section Spellings
variable {cs lexeme piece : List Char} {value : Decimal}

theorem StartsWithDigit.append (h : StartsWithDigit lexeme) : StartsWithDigit (lexeme ++ piece) := by
  obtain ⟨c, ds, rfl, hc⟩ := h
  exact ⟨c, ds ++ piece, rfl, hc⟩

theorem finiteNumeral?_eq_some (h : StartsWithDigit cs) :
    finiteNumeral? cs = some value ↔ Numeral cs value ∧ value.index < infinity := by
  obtain ⟨c, ds, rfl, hc⟩ := h
  rw [finiteNumeral?, Option.filter_eq_some_iff, read?_eq_some hc, Decimal.isFinite,
    decide_eq_true_iff]

theorem not_spellsFinite (h : StartsWithDigit cs) (hnone : finiteNumeral? cs = none) :
    ¬SpellsFinite cs := by
  rintro ⟨numeral, x, hnumeral, hx⟩
  cases hnone.symm.trans ((finiteNumeral?_eq_some h).2 ⟨hnumeral, hx.index_lt⟩)

end Spellings

/-! ## Pieces -/

/-- The text has an exponent mark. -/
def HasMark (cs : List Char) : Prop :=
  'e' ∈ cs ∨ 'E' ∈ cs

section Pieces
variable {c : Char} {cs piece : List Char} {hasExponent : Bool}

theorem numberPiece_of_ne (hc : c ≠ 'e' ∧ c ≠ 'E') : numberPiece hasExponent (c :: cs) = [c] := by
  simp [numberPiece, hc]

/-- What is taken as a piece is taken wherever it stands in front. -/
theorem numberPiece_append (hne : piece ≠ []) (h : numberPiece hasExponent cs = piece)
    (rest : List Char) : numberPiece hasExponent (piece ++ rest) = piece := by
  fun_cases numberPiece hasExponent cs with
  | case1 => exact absurd h.symm hne
  | case2 c hmark d r hdigit =>
    obtain rfl : [c, d] = piece := by simpa [numberPiece, hmark, hdigit] using h
    simp [numberPiece, hmark, hdigit]
  | case3 c hmark d hdigit d' r hsign =>
    obtain rfl : [c, d, d'] = piece := by simpa [numberPiece, hmark, hdigit, hsign] using h
    simp [numberPiece, hmark, hdigit, hsign]
  | case4 c hmark d hdigit d' r hsign =>
    rw [numberPiece, if_pos hmark] at h
    simp only [hdigit, hsign] at h
    exact absurd h.symm hne
  | case5 c hmark d hdigit =>
    exact absurd (by simpa [numberPiece, hmark, hdigit] using h.symm) hne
  | case6 hasExponent c r hmark hshort =>
    rw [numberPiece, if_pos hmark] at h
    · exact absurd h.symm hne
    · exact hshort
  | case7 hasExponent c r hmark =>
    obtain rfl : [c] = piece := by simpa [numberPiece, hmark] using h
    simp [numberPiece, hmark]

theorem numberPiece_of_startsExponent (h : StartsExponent piece) (rest : List Char) :
    numberPiece false (piece ++ rest) = piece := by
  cases h with
  | unsigned hmark hdigit => simp [numberPiece, hmark, hdigit]
  | signed hmark hsign hdigit => rcases hsign with rfl | rfl <;> simp [numberPiece, hmark, hdigit]

/-- A piece of more than one character has the mark of an exponent. -/
theorem hasMark_of_length_ne_one (hne : numberPiece hasExponent cs ≠ [])
    (hlen : (numberPiece hasExponent cs).length ≠ 1) : HasMark (numberPiece hasExponent cs) := by
  have hmem : ∀ {c : Char} {cs : List Char}, c = 'e' ∨ c = 'E' → HasMark (c :: cs) := by
    rintro c cs (rfl | rfl) <;> simp [HasMark]
  revert hne hlen
  fun_cases numberPiece hasExponent cs with
  | case2 c hmark => exact fun _ _ => hmem hmark
  | case3 c hmark => exact fun _ _ => hmem hmark
  | case7 => exact fun _ hlen => absurd rfl hlen
  | _ => exact fun hne => absurd rfl hne

end Pieces

/-! ## Where numbers stop -/

/-- No piece goes on with the number. -/
def NumberStops (lexeme : List Char) (hasExponent : Bool) (rest : List Char) : Prop :=
  numberPiece hasExponent rest = [] ∨
    finiteNumeral? (lexeme ++ numberPiece hasExponent rest) = none

/-- With the next character or the start of an exponent the text is no spelling of a finite number, unless
it has an exponent already. -/
structure IsMaximal (lexeme rest : List Char) : Prop where
  character : ∀ c ∈ rest.head?, c.isDigit = true ∨ c = '.' → ¬SpellsFinite (lexeme ++ [c])
  exponent : ∀ piece, StartsExponent piece → piece <+: rest →
    HasMark lexeme ∨ ¬SpellsFinite (lexeme ++ piece)

section Stops
variable {cs lexeme rest grown : List Char} {hasExponent : Bool}

theorem growNumber_of_stops (h : NumberStops lexeme hasExponent cs) :
    growNumber lexeme hasExponent cs = (lexeme, cs) := by
  rw [growNumber]
  rcases h with h | h <;> simp [h]

/-- A number grows until it stops, and the flag tells whether it has an exponent. -/
theorem stops_of_growNumber (hmark : hasExponent = true → HasMark lexeme)
    (h : growNumber lexeme hasExponent cs = (grown, rest)) :
    ∃ hasExponent', NumberStops grown hasExponent' rest ∧ (hasExponent' = true → HasMark grown) := by
  fun_induction growNumber lexeme hasExponent cs with
  | case1 lexeme hasExponent cs piece hnil =>
    cases h
    exact ⟨hasExponent, .inl hnil, hmark⟩
  | case2 lexeme hasExponent cs piece hne hnone =>
    cases h
    exact ⟨hasExponent, .inr hnone, hmark⟩
  | case3 lexeme hasExponent cs piece hne next hnext ih =>
    refine ih (fun hflag => ?_) h
    rcases Bool.or_eq_true_iff.1 hflag with hflag | hlen
    · exact (hmark hflag).imp (List.mem_append_left _) (List.mem_append_left _)
    · exact (hasMark_of_length_ne_one hne (of_decide_eq_true hlen)).imp
        (List.mem_append_right _) (List.mem_append_right _)

/-- A number goes on through characters that are no exponent marks for as long as it stays finite. -/
theorem growNumber_characters (hne : ∀ c ∈ cs, c ≠ 'e' ∧ c ≠ 'E')
    (hfin : ∀ p, p <+: cs → ∃ v, finiteNumeral? (lexeme ++ p) = some v) :
    growNumber lexeme hasExponent (cs ++ rest) = growNumber (lexeme ++ cs) hasExponent rest := by
  induction cs generalizing lexeme with
  | nil => rw [List.append_nil, List.nil_append]
  | cons c cs ih =>
    obtain ⟨hc, hcs⟩ := List.forall_mem_cons.1 hne
    obtain ⟨next, hnext⟩ := hfin [c] ⟨cs, rfl⟩
    have hlater : ∀ p, p <+: cs → ∃ v, finiteNumeral? (lexeme ++ [c] ++ p) = some v := by
      rintro p ⟨q, rfl⟩
      rw [List.append_assoc]
      exact hfin (c :: p) ⟨q, rfl⟩
    rw [List.append_cons lexeme, growNumber]
    simp only [List.cons_append, numberPiece_of_ne hc, hnext]
    simpa using ih hcs hlater

theorem NumberStops.isMaximal (hdigit : StartsWithDigit lexeme)
    (h : NumberStops lexeme hasExponent rest) (hmark : hasExponent = true → HasMark lexeme) :
    IsMaximal lexeme rest := by
  constructor
  · intro c hc hkind
    obtain ⟨rest, rfl⟩ := List.head?_eq_some_iff.1 hc
    rw [NumberStops, numberPiece_of_ne (ne_exponent_of_digit_or_point hkind)] at h
    exact not_spellsFinite hdigit.append (h.resolve_left (List.cons_ne_nil c []))
  · rintro piece hpiece ⟨rest, rfl⟩
    cases hasExponent with
    | true => exact .inl (hmark rfl)
    | false =>
      rw [NumberStops, numberPiece_of_startsExponent hpiece] at h
      exact .inr (not_spellsFinite hdigit.append (h.resolve_left hpiece.ne_nil))

end Stops

section Tokens
variable {d : Dialect} {c : Char} {cs lexeme rest : List Char} {numeral : Decimal}

theorem next_number (p : Nat) (hc : c.isDigit = true) (htext : c :: cs = lexeme ++ rest)
    (hgrow : growNumber [c] false cs = (lexeme, rest))
    (hread : Decimal.read? lexeme = some numeral) :
    Cursor.next d ⟨p, c :: cs⟩ =
      (.ok ⟨.number (numeral.toFloat false), p⟩, ⟨p + lexeme.length, rest⟩) := by
  have hblank : Text.isBlank c = false := isBlank_eq_false_of_isDigit hc
  have hmove : Cursor.moveTo ⟨p, c :: cs⟩ rest = ⟨p + lexeme.length, rest⟩ := by
    rw [htext, Cursor.moveTo_append]
  simp only [Cursor.next, Cursor.skipBlanks_of_not_blank hblank, scanToken_digit hc hgrow hread,
    hmove]

end Tokens

/-- At a digit the next token is always a number, whatever follows. Its lexeme is not empty and spells a
finite number, which is the token's content, and it cannot be prolonged. -/
theorem next_number_is_maximal (d : Dialect) {s : Cursor} {c : Char} {cs : List Char}
    (hrest : s.rest = c :: cs) (hc : c.isDigit = true) :
    ∃ lexeme rest numeral x, s.rest = lexeme ++ rest ∧ lexeme ≠ [] ∧
      s.next d = (.ok ⟨.number x, s.position⟩, ⟨s.position + lexeme.length, rest⟩) ∧
      Decimal.read? lexeme = some numeral ∧ Numeral lexeme numeral ∧ numeral.RoundsTo x ∧
      IsMaximal lexeme rest := by
  obtain ⟨p, text⟩ := s
  dsimp only at hrest
  subst hrest
  obtain ⟨lexeme, rest, hgrow⟩ : ∃ lexeme rest, growNumber [c] false cs = (lexeme, rest) :=
    ⟨_, _, rfl⟩
  have hnoMark : false = true → HasMark [c] := nofun
  obtain ⟨htext, numeral, hfinal⟩ := growNumber_lexeme (exists_finiteNumeral?_digit hc) hgrow
  obtain ⟨hasExponent, hstops, hmark⟩ := stops_of_growNumber hnoMark hgrow
  have hdigit : StartsWithDigit lexeme := by
    cases lexeme with
    | nil => cases hfinal
    | cons c' ds =>
      obtain ⟨rfl, -⟩ := List.cons.inj htext
      exact ⟨c, ds, rfl, hc⟩
  obtain ⟨hnumeral, hfin⟩ := (finiteNumeral?_eq_some hdigit).1 hfinal
  have hread : Decimal.read? lexeme = some numeral := read?_of_finiteNumeral? hfinal
  refine ⟨lexeme, rest, numeral, numeral.toFloat false, htext, ?_,
    next_number p hc htext hgrow hread, hread, hnumeral, roundsTo_toFloat (decide_eq_true hfin),
    hstops.isMaximal hdigit hmark⟩
  rintro rfl
  cases hfinal

/-- A number stops in the middle of its exponent where another digit makes it infinite. -/
theorem next_overflowing_number : '1'.isDigit = true ∧
    Cursor.next .standard ⟨2, ['1', '2', 'e', '3', '0', '8', '9', ')']⟩ =
      (.ok ⟨.number 12e30, 2⟩, ⟨7, ['8', '9', ')']⟩) ∧
    IsMaximal ['1', '2', 'e', '3', '0'] ['8', '9', ')'] := by
  have hnext : Cursor.next .standard ⟨2, ['1', '2', 'e', '3', '0', '8', '9', ')']⟩ =
      (.ok ⟨.number 12e30, 2⟩, ⟨7, ['8', '9', ')']⟩) := by decide +kernel
  obtain ⟨lexeme, rest, numeral, x, htext, -, hnext', -, -, -, hmaximal⟩ := next_number_is_maximal
    .standard (s := ⟨2, ['1', '2', 'e', '3', '0', '8', '9', ')']⟩) rfl (by decide)
  rw [hnext] at hnext'
  obtain rfl : ['8', '9', ')'] = rest := congrArg (fun answer => answer.2.rest) hnext'
  obtain rfl : ['1', '2', 'e', '3', '0'] = lexeme := List.append_cancel_right htext
  exact ⟨by decide, hnext, hmaximal⟩

end CellFormula
