import CellFormula.Proofs.Token.Numbers
/-!
# Where tokens end

Some characters can never go on with a token that has begun: blanks are such, and the delimiters of
formulas. So in front of them the scanner stops where it has stopped without them.
-/

namespace CellFormula

open Number

/-! ## Characters that end tokens -/

/-- No word, number or quoted text goes on with the character. -/
def isTokenEnd (c : Char) : Bool :=
  !isWordChar c && !(['.', '+', '-', '"'].contains c)

/-- The text is empty, or its first character ends every token in front of it. -/
def EndsToken (rest : List Char) : Prop :=
  ∀ c ∈ rest.head?, isTokenEnd c = true

theorem isWordChar_of_isTokenEnd {c : Char} (hc : isTokenEnd c = true) : isWordChar c = false := by
  simpa using (Bool.and_eq_true_iff.1 hc).1

theorem ne_quote_of_isTokenEnd {c : Char} (hc : isTokenEnd c = true) : c ≠ '"' := by
  rintro rfl
  cases hc

theorem isTokenEnd_of_isBlank {c : Char} (hc : Text.isBlank c = true) : isTokenEnd c = true := by
  have hword : isWordChar c = false := by
    by_contra hword
    rw [Bool.not_eq_false, isWordChar, Bool.or_eq_true, beq_iff_eq] at hword
    rcases hword with halphanum | rfl
    · rw [isBlank_eq_false_of_isAlphanum halphanum] at hc
      cases hc
    · cases hc
  have hother : ['.', '+', '-', '"'].contains c = false := by
    rw [List.contains_eq_mem, decide_eq_false_iff_not]
    intro hmem
    simp only [List.mem_cons, List.not_mem_nil, or_false] at hmem
    rcases hmem with rfl | rfl | rfl | rfl <;> cases hc
  rw [isTokenEnd, hword, hother]
  rfl

theorem AllBlank.endsToken {w : List Char} (h : AllBlank w) : EndsToken w := fun c hc =>
  isTokenEnd_of_isBlank (h c (List.mem_of_mem_head? hc))

theorem isTokenEnd_of_isDigit {c : Char} (hc : c.isDigit = true) : isTokenEnd c = false := by
  simp [isTokenEnd, isWordChar, Char.isAlphanum, hc]

/-- A character of a numeral ends no token. -/
theorem isTokenEnd_of_numeral {lexeme : List Char} {numeral : Decimal} (h : Numeral lexeme numeral) :
    ∀ c ∈ lexeme, isTokenEnd c = false := by
  obtain ⟨hfront, htail⟩ := h
  refine List.forall_mem_append.2 ⟨fun c hc => ?_, ?_⟩
  · rcases hfront.isDigit_or_point hc with hdigit | rfl
    · exact isTokenEnd_of_isDigit hdigit
    · decide
  · have hsign : isTokenEnd '+' = false ∧ isTokenEnd '-' = false := by decide
    have hletter : isTokenEnd 'e' = false ∧ isTokenEnd 'E' = false := by decide
    cases htail with
    | absent => exact nofun
    | unsigned hmark _ hds | positive hmark _ hds | negative hmark _ hds =>
      have hdigits := fun c hc => isTokenEnd_of_isDigit (hds c hc)
      rcases hmark with rfl | rfl <;> simpa [hsign, hletter] using hdigits

/-! ## Scanning in front of them -/

section Scanning
variable {d : Dialect} {c : Char} {cs u v w lexeme piece x : List Char} {hasExponent : Bool}
  {value : Decimal}

/-- A text that stands at the start where a token end comes between stands there also without it. -/
theorem exists_append_of_ended (hw : EndsToken w) (hpiece : ∀ c ∈ piece, isTokenEnd c = false)
    (h : piece ++ x = u ++ (w ++ v)) : ∃ y, piece ++ y = u ++ v := by
  rcases List.append_eq_append_iff.1 h with ⟨a, rfl, -⟩ | ⟨a, rfl, ha⟩
  · exact ⟨a ++ v, (List.append_assoc ..).symm⟩
  · cases w with
    | nil => exact ⟨x, h⟩
    | cons b w =>
      cases a with
      | nil => exact ⟨v, by rw [List.append_nil]⟩
      | cons c a =>
        obtain ⟨rfl, -⟩ := List.cons.inj ha
        have hend := hw b rfl
        rw [hpiece b (by simp)] at hend
        cases hend

/-- A token end gives a number nothing to go on with: a piece with one is no part of a numeral, and a
piece in front of it stands in both texts. -/
theorem NumberStops.ended (hw : EndsToken w) (hdigit : StartsWithDigit lexeme)
    (h : NumberStops lexeme hasExponent (u ++ v)) :
    NumberStops lexeme hasExponent (u ++ (w ++ v)) := by
  generalize hpiece : numberPiece hasExponent (u ++ (w ++ v)) = piece
  by_cases hne : piece = []
  · exact .inl (hpiece.trans hne)
  cases hnumeral : finiteNumeral? (lexeme ++ piece) with
  | none => exact .inr (by rw [hpiece, hnumeral])
  | some grown =>
    have hnone : ∀ c ∈ piece, isTokenEnd c = false := fun c hc =>
      isTokenEnd_of_numeral ((finiteNumeral?_eq_some hdigit.append).1 hnumeral).1 c
        (List.mem_append_right _ hc)
    have hfront := numberPiece_append_drop hasExponent (u ++ (w ++ v))
    rw [hpiece] at hfront
    obtain ⟨y, hy⟩ := exists_append_of_ended hw hnone hfront
    have hsame : numberPiece hasExponent (u ++ v) = piece := by
      rw [← hy]
      exact numberPiece_append hne hpiece y
    rcases h with h | h
    · exact absurd (hsame.symm.trans h) hne
    · rw [hsame, hnumeral] at h
      cases h

theorem growNumber_ended {grown : List Char} (hw : EndsToken w) (hdigit : StartsWithDigit lexeme)
    (h : growNumber lexeme hasExponent (cs ++ (u ++ v)) = (grown, u ++ v)) :
    growNumber lexeme hasExponent (cs ++ (u ++ (w ++ v))) = (grown, u ++ (w ++ v)) := by
  generalize htext : cs ++ (u ++ v) = text at h
  fun_induction growNumber lexeme hasExponent text generalizing cs with
  | case1 lexeme hasExponent text =>
    rename_i hnil
    cases h
    obtain rfl : cs = [] := List.append_left_eq_self.1 htext
    rw [List.nil_append]
    have hstops : NumberStops grown hasExponent (u ++ v) := .inl hnil
    exact growNumber_of_stops (hstops.ended hw hdigit)
  | case2 lexeme hasExponent text =>
    rename_i hnone
    cases h
    obtain rfl : cs = [] := List.append_left_eq_self.1 htext
    rw [List.nil_append]
    have hstops : NumberStops grown hasExponent (u ++ v) := .inr hnone
    exact growNumber_of_stops (hstops.ended hw hdigit)
  | case3 lexeme hasExponent text piece hne next hnext =>
    rename_i ih
    have htake : piece ++ text.drop piece.length = text := numberPiece_append_drop hasExponent text
    have hle := length_growNumber_le (lexeme ++ piece) (hasExponent || piece.length ≠ 1)
      (text.drop piece.length)
    rw [h] at hle
    -- The number ends behind this piece, so `cs` starts with it.
    have hlen : piece.length ≤ cs.length := by
      have hlen := congrArg List.length (htake.trans htext.symm)
      simp only [List.length_append] at hlen hle
      omega
    obtain ⟨cs', rfl⟩ : piece <+: cs :=
      List.prefix_of_prefix_length_le ⟨_, htake⟩ ⟨_, htext⟩ hlen
    rw [List.append_assoc] at htext
    have hdrop := List.append_cancel_left (htext.trans htake.symm)
    have hpiece := numberPiece_append hne rfl (cs' ++ (u ++ (w ++ v)))
    have hgrow := ih hdigit.append hdrop h
    rw [List.append_assoc, growNumber]
    simp only [hpiece, dif_neg hne, hnext, List.drop_left]
    exact hgrow

/-- What holds of token ends and of the next character holds of it with a token end between. -/
theorem head?_ended {P : Char → Prop} (hw : EndsToken w) (hend : ∀ c, isTokenEnd c = true → P c)
    (h : ∀ c ∈ (u ++ v).head?, P c) : ∀ c ∈ (u ++ (w ++ v)).head?, P c := by
  cases u with
  | cons c u => exact h
  | nil =>
    cases w with
    | nil => exact h
    | cons b w =>
      intro c hc
      cases hc
      exact hend b (hw b rfl)

theorem span_ended (hw : EndsToken w) (h : (cs ++ (u ++ v)).dropWhile isWordChar = u ++ v) :
    (cs ++ (u ++ v)).takeWhile isWordChar = cs ∧
    (cs ++ (u ++ (w ++ v))).takeWhile isWordChar = cs ∧
    (cs ++ (u ++ (w ++ v))).dropWhile isWordChar = u ++ (w ++ v) := by
  have htake : (cs ++ (u ++ v)).takeWhile isWordChar = cs := by
    have hwhole := List.takeWhile_append_dropWhile (p := isWordChar) (l := cs ++ (u ++ v))
    rw [h] at hwhole
    exact List.append_cancel_right hwhole
  have hword : ∀ c ∈ cs, isWordChar c = true := fun c hc =>
    List.mem_takeWhile_imp (htake.symm ▸ hc)
  have hend : ∀ c ∈ (u ++ v).head?, isWordChar c = false := fun c hc => by
    have hhead := List.head?_dropWhile_not isWordChar (cs ++ (u ++ v))
    rwa [h, Option.mem_def.1 hc] at hhead
  exact ⟨htake, span_append hword (head?_ended hw (fun _ => isWordChar_of_isTokenEnd) hend)⟩

theorem read?_ended {content : List Char} (hw : EndsToken w)
    (h : Text.Quoted.read? (cs ++ (u ++ v)) = some (content, u ++ v)) :
    Text.Quoted.read? (cs ++ (u ++ (w ++ v))) = some (content, u ++ (w ++ v)) := by
  have hend : ∀ c ∈ (u ++ v).head?, c ≠ '"' := by
    rintro c hc rfl
    exact head?_ne_quote_of_read? h hc
  have hwritten := Text.Quoted.eq_written_of_read? h
  rw [List.append_cons] at hwritten
  rw [List.append_cancel_right hwritten, List.append_assoc]
  refine Text.Quoted.read?_written content _ fun hc => ?_
  exact head?_ended hw (fun _ => ne_quote_of_isTokenEnd) hend '"' hc rfl

/-- The scanner stops in front of a token end where it has stopped without it. -/
theorem scanToken_ended {kind : TokenKind} (hw : EndsToken w)
    (h : scanToken d c (cs ++ (u ++ v)) = .ok (kind, u ++ v)) :
    scanToken d c (cs ++ (u ++ (w ++ v))) = .ok (kind, u ++ (w ++ v)) := by
  unfold scanToken at h ⊢
  split at h
  · rename_i hdigit
    rw [if_pos hdigit]
    obtain ⟨grown, rest, hgrow⟩ : ∃ grown rest,
      growNumber [c] false (cs ++ (u ++ v)) = (grown, rest) := ⟨_, _, rfl⟩
    rw [hgrow] at h
    dsimp only at h
    split at h
    · rename_i hread
      cases h
      simp only [growNumber_ended hw ⟨c, [], rfl, hdigit⟩ hgrow, hread]
    · cases h
  rename_i hdigit
  rw [if_neg hdigit]
  split at h
  · rename_i hletter
    rw [if_pos hletter]
    obtain ⟨hkind, hdrop⟩ := Prod.mk.inj (Except.ok.inj h)
    obtain ⟨htake, htake', hdrop'⟩ := span_ended hw hdrop
    rw [htake', hdrop', ← hkind, htake]
  rename_i hletter
  rw [if_neg hletter]
  split at h
  · rename_i hquote
    rw [if_pos hquote]
    cases hread : Text.Quoted.read? (cs ++ (u ++ v)) with
    | none =>
      rw [hread] at h
      cases h
    | some read =>
      obtain ⟨content, rest⟩ := read
      rw [hread] at h
      cases h
      rw [read?_ended hw hread]
  rename_i hquote
  rw [if_neg hquote]
  split at h
  · rename_i hop
    rw [if_pos hop]
    obtain ⟨hkind, hrest⟩ := Prod.mk.inj (Except.ok.inj h)
    rw [← hkind, List.append_left_eq_self.1 hrest, List.nil_append]
  rename_i hop
  rw [if_neg hop]
  split at h
  · rename_i hdel
    rw [if_pos hdel]
    obtain ⟨hkind, hrest⟩ := Prod.mk.inj (Except.ok.inj h)
    rw [← hkind, List.append_left_eq_self.1 hrest, List.nil_append]
  · cases h

end Scanning

/-! ## Steps behind blanks -/

namespace Cursor

variable {d : Dialect} {s s' : Cursor} {t : Token} {p : Nat} {c : Char} {cs rest blanks : List Char}
  {kind : TokenKind}

/-- A token that can be scanned behind some blanks is the next one. -/
theorem next_of_scanToken (hblanks : AllBlank blanks) (hc : Text.isBlank c = false)
    (h : scanToken d c (cs ++ rest) = .ok (kind, rest)) :
    next d ⟨p, blanks ++ c :: (cs ++ rest)⟩ =
      (.ok ⟨kind, p + blanks.length⟩, ⟨p + blanks.length + (cs.length + 1), rest⟩) := by
  have hhead : ∀ b ∈ (c :: (cs ++ rest)).head?, Text.isBlank b = false := by
    intro b hb
    cases hb
    exact hc
  rw [next, skipBlanks_append hblanks hhead]
  simp only [h]
  rw [← List.cons_append, moveTo_append, List.length_cons]

/-- The next token has been scanned behind some blanks. -/
theorem scanToken_of_next (h : s.next d = (.ok t, s')) (ht : t.kind ≠ .endOfInput) :
    ∃ blanks c cs, AllBlank blanks ∧ Text.isBlank c = false ∧
      s.rest = blanks ++ c :: (cs ++ s'.rest) ∧
      scanToken d c (cs ++ s'.rest) = .ok (t.kind, s'.rest) := by
  obtain ⟨p, text⟩ := s
  obtain ⟨blanks, rest, rfl, hblanks, hrest⟩ := exists_blanks text
  rw [next, skipBlanks_append hblanks hrest] at h
  cases rest with
  | nil =>
    cases h
    exact absurd rfl ht
  | cons c cs =>
    have hc : Text.isBlank c = false := hrest c rfl
    cases hscan : scanToken d c cs with
    | error x => cases x <;> simp [hscan] at h
    | ok read =>
      obtain ⟨kind, rest⟩ := read
      simp only [hscan] at h
      cases h
      obtain ⟨lexeme, htext, hlexeme⟩ : ∃ lexeme, c :: cs = lexeme ++ rest ∧
          Lexeme d kind lexeme rest := by
        cases hscan ▸ scans_scanToken hc with
        | lexeme htext hlexeme => exact ⟨_, htext, hlexeme⟩
      obtain ⟨c', cs', rfl, -⟩ := hlexeme.exists_cons
      cases htext
      exact ⟨blanks, c, cs', hblanks, hc, rfl, hscan⟩

end Cursor

end CellFormula
