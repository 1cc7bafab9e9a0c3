import CellFormula.Proofs.Number.Shortest
import CellFormula.Proofs.Token.Ends
/-!
# Cutting texts into tokens

`Cuts d cs ks` says that a text falls into tokens of the kinds `ks` without an error. There is a
lemma for each kind of token in front of a rest that has been cut. Numbers, words and quoted texts
need a rest that does not go on with them; `EndsLeaf` is what printed formulas have there. Two texts
that have been cut can be joined if the second ends the tokens of the first.
-/

namespace CellFormula

open Number

/-! ## Cutting -/

/-- The text falls into tokens of these kinds, wherever it stands. -/
def Cuts (d : Dialect) (cs : List Char) (ks : List TokenKind) : Prop :=
  ∀ p, (∃ q, (scanAll d ⟨p, cs⟩).ending = .ok q) ∧ (scanAll d ⟨p, cs⟩).tokens.map Token.kind = ks

section Cutting
variable {d : Dialect} {c : Char} {cs rest : List Char} {ks : List TokenKind} {k : TokenKind}

theorem cuts_nil : Cuts d [] [] := by
  intro p
  rw [scanAll_end (Cursor.next_nil d p)]
  exact ⟨⟨p, rfl⟩, rfl⟩

theorem Cuts.blanks {blanks : List Char} (hblanks : AllBlank blanks) (h : Cuts d cs ks) :
    Cuts d (blanks ++ cs) ks := by
  intro p
  rw [scanAll_congr (Cursor.next_blanks d p cs hblanks)]
  exact h (p + blanks.length)

theorem Cuts.space (h : Cuts d cs ks) : Cuts d (' ' :: cs) ks :=
  h.blanks (List.forall_mem_singleton.2 rfl)

theorem Cuts.token (hc : Text.isBlank c = false) (hscan : scanToken d c cs = .ok (k, rest))
    (hk : k ≠ .endOfInput) (h : Cuts d rest ks) : Cuts d (c :: cs) (k :: ks) := by
  intro p
  have hnext : Cursor.next d ⟨p, c :: cs⟩ = (.ok ⟨k, p⟩, Cursor.moveTo ⟨p, c :: cs⟩ rest) := by
    simp only [Cursor.next, Cursor.skipBlanks_of_not_blank hc, hscan]
  rw [scanAll_token hnext hk]
  obtain ⟨hend, hks⟩ := h (p + ((c :: cs).length - rest.length))
  exact ⟨hend, congrArg (k :: ·) hks⟩

end Cutting

/-! ## Operators and delimiters -/

/-- The operators of formulas are operators, and their delimiters are delimiters. -/
structure Dialect.Conventional (d : Dialect) : Prop where
  operators : ∀ c ∈ ['+', '-', '*', '/', '^'], d.isOperator c = true
  delimiters : ∀ c ∈ ['(', ')', ',', ':'], d.isOperator c = false ∧ d.isDelimiter c = true

theorem Dialect.standard_conventional : standard.Conventional :=
  ⟨by simp [standard], by simp [standard]⟩

variable {d : Dialect} {c : Char} {cs rest : List Char} {ks : List TokenKind}

theorem starts_symbol (hc : c ∈ ['+', '-', '*', '/', '^', '(', ')', ',', ':']) :
    (c.isDigit = false ∧ c.isAlpha = false ∧ c ≠ '"') ∧ Text.isBlank c = false := by
  simp only [List.mem_cons, List.not_mem_nil, or_false] at hc
  rcases hc with rfl | rfl | rfl | rfl | rfl | rfl | rfl | rfl | rfl <;> decide

theorem Cuts.operator (hd : d.Conventional) (hc : c ∈ ['+', '-', '*', '/', '^'])
    (h : Cuts d cs ks) : Cuts d (c :: cs) (.operator c :: ks) := by
  obtain ⟨⟨hdigit, halpha, hquote⟩, hblank⟩ :=
    starts_symbol (List.mem_append_left ['(', ')', ',', ':'] hc)
  refine h.token hblank ?_ (by simp)
  simp [scanToken, hdigit, halpha, hquote, hd.operators c hc]

theorem Cuts.delimiter (hd : d.Conventional) (hc : c ∈ ['(', ')', ',', ':'])
    (h : Cuts d cs ks) : Cuts d (c :: cs) (.delimiter c :: ks) := by
  obtain ⟨⟨hdigit, halpha, hquote⟩, hblank⟩ :=
    starts_symbol (List.mem_append_right ['+', '-', '*', '/', '^'] hc)
  obtain ⟨hop, hdel⟩ := hd.delimiters c hc
  refine h.token hblank ?_ (by simp)
  simp [scanToken, hdigit, halpha, hquote, hop, hdel]

/-! ## Ends of leaves -/

/-- Printed formulas have the end or one of these behind a number, a word or a quoted text. -/
def leafEnds : List Char := [' ', '(', ')', ',', ':']

/-- The text is empty or starts with one of `leafEnds`. -/
def EndsLeaf (rest : List Char) : Prop :=
  ∀ c ∈ rest.head?, c ∈ leafEnds

theorem endsLeaf_nil : EndsLeaf [] := by
  intro c hc
  cases hc

theorem endsLeaf_cons {c : Char} {cs : List Char} (h : c ∈ leafEnds) : EndsLeaf (c :: cs) := by
  intro c' hc
  cases hc
  exact h

theorem EndsLeaf.endsToken (h : EndsLeaf rest) : EndsToken rest := by
  intro c hc
  have hmem := h c hc
  simp only [leafEnds, List.mem_cons, List.not_mem_nil, or_false] at hmem
  rcases hmem with rfl | rfl | rfl | rfl | rfl <;> decide

/-! ## Numbers -/

/-- A start of a numeral is never larger, so that it is finite too and the scanner goes on. -/
theorem growNumber_spells {lexeme : List Char} {value : Decimal} (hne : lexeme ≠ [])
    (h : Spells (lexeme ++ cs) value) (hfin : value.index < infinity) :
    growNumber lexeme false (cs ++ rest) = growNumber (lexeme ++ cs) false rest := by
  refine growNumber_characters (fun c hc => h.ne_exponent (List.mem_append_right _ hc)) ?_
  rintro p ⟨q, rfl⟩
  rw [← List.append_assoc] at h
  obtain ⟨piece, hpiece, hle⟩ := h.of_append (List.append_ne_nil_of_left_ne_nil hne p)
  exact ⟨piece, finiteNumeral?_of_spells hpiece (Nat.lt_of_le_of_lt hle hfin)⟩

theorem growNumber_stop {lexeme : List Char} {value : Decimal} (h : Spells lexeme value)
    (hrest : EndsLeaf rest) : growNumber lexeme false rest = (lexeme, rest) := by
  -- At the end of the text there is nothing to go on with, so neither is there in front of a token end.
  have hend : NumberStops lexeme false ([] ++ []) := .inl rfl
  have hstops := hend.ended hrest.endsToken h.exists_digit
  rw [List.nil_append, List.append_nil] at hstops
  exact growNumber_of_stops hstops

theorem isDigit_eq_false_of_isAlpha (hc : c.isAlpha = true) : c.isDigit = false := by
  simp [Char.isAlpha, Char.isUpper, Char.isLower, Char.isDigit, UInt32.le_iff_toNat_le] at hc ⊢
  omega

/-- A spelled finite number is cut off whole. -/
theorem Cuts.number {value : Decimal} (hs : Spells cs value) (hfin : value.index < infinity)
    (hrest : EndsLeaf rest) (h : Cuts d rest ks) :
    Cuts d (cs ++ rest) (.number (value.toFloat false) :: ks) := by
  obtain ⟨c, cs, rfl, hc⟩ := hs.exists_digit
  have hblank : Text.isBlank c = false := isBlank_eq_false_of_isDigit hc
  have hgrow : growNumber [c] false (cs ++ rest) = (c :: cs, rest) := by
    rw [growNumber_spells (by simp) hs hfin]
    exact growNumber_stop hs hrest
  rw [List.cons_append]
  exact h.token hblank (scanToken_digit hc hgrow hs.read?) (by simp)

/-! ## Words and quoted texts -/

theorem Cuts.word {word : List Char} (hword : isWord (String.ofList word) = true)
    (hrest : EndsLeaf rest) (h : Cuts d rest ks) :
    Cuts d (word ++ rest) (wordKind d word :: ks) := by
  cases word with
  | nil => cases hword
  | cons c cs =>
    simp only [isWord, String.toList_ofList, Bool.and_eq_true, List.all_eq_true] at hword
    obtain ⟨halpha, hcs⟩ := hword
    have hblank : Text.isBlank c = false := isBlank_eq_false_of_isAlpha halpha
    have hdigit := isDigit_eq_false_of_isAlpha halpha
    have hrest' : ∀ c ∈ rest.head?, isWordChar c = false :=
      fun c hc => isWordChar_of_isTokenEnd (hrest.endsToken c hc)
    obtain ⟨htake, hdrop⟩ := span_append hcs hrest'
    rw [List.cons_append]
    refine h.token hblank ?_ ?_
    · rw [scanToken]
      simp [hdigit, halpha, htake, hdrop]
    · unfold wordKind
      split <;> simp

theorem Cuts.text (text : List Char) (hrest : EndsLeaf rest) (h : Cuts d rest ks) :
    Cuts d (Text.Quoted.write text ++ rest) (.text (String.ofList text) :: ks) := by
  have hhead : rest.head? ≠ some '"' := fun hq =>
    ne_quote_of_isTokenEnd (hrest.endsToken '"' hq) rfl
  have hread := Text.Quoted.read?_written text rest hhead
  rw [Text.Quoted.write, List.cons_append, List.append_assoc]
  refine h.token (by decide) ?_ (by simp)
  rw [scanToken]
  simp [hread]

/-! ## Joining -/

/-- The tokens that a cursor takes up to the end are also taken in front of a text that ends them. -/
theorem Cuts.behind_scanAll {s : Cursor} {p : Nat} (hs : (scanAll d s).ending = .ok p)
    (hrest : EndsToken rest) (h : Cuts d rest ks) :
    Cuts d (s.rest ++ rest) ((scanAll d s).tokens.map Token.kind ++ ks) := by
  fun_induction scanAll d s with
  | case1 => cases hs
  | case2 s t s' hnext ht =>
    cases hnext ▸ s.steps_next d with
    | finish hblanks => exact h.blanks hblanks
    | token _ hlexeme => exact absurd ht hlexeme.kind_ne_endOfInput
  | case3 s t s' hnext ht run ih =>
    obtain ⟨blanks, c, cs, hblanks, hc, htext, hscan⟩ := Cursor.scanToken_of_next hnext ht
    have hscan' : scanToken d c (cs ++ (s'.rest ++ rest)) = .ok (t.kind, s'.rest ++ rest) := by
      have hended := scanToken_ended (u := s'.rest) (v := []) hrest (by simpa using hscan)
      simpa using hended
    have hcut := (ih hs).token hc hscan' ht
    simpa [htext] using hcut.blanks hblanks

/-- Where a text stands makes no difference. -/
theorem cuts_of_scanAll {s : Cursor} {p : Nat} (hs : (scanAll d s).ending = .ok p) :
    Cuts d s.rest ((scanAll d s).tokens.map Token.kind) := by
  simpa using cuts_nil.behind_scanAll hs endsLeaf_nil.endsToken

theorem Cuts.append {us : List TokenKind} (h : Cuts d cs ks) (hrest : EndsToken rest)
    (h' : Cuts d rest us) : Cuts d (cs ++ rest) (ks ++ us) := by
  obtain ⟨⟨p, hp⟩, rfl⟩ := h 0
  exact h'.behind_scanAll hp hrest

end CellFormula
