import CellFormula.Proofs.Token.Lexeme
/-!
# Texts as segments

A text that can be cut into tokens is a row of segments, each of them blanks and a lexeme, with more
blanks behind the last one. `tokenize_segments` says that the tokens are those of the segments, in
their order and with the positions of their lexemes, and the end of the text.
-/

namespace CellFormula

/-- Blanks, and behind them a token as it is spelled. -/
structure Segment where
  blanks : List Char
  lexeme : List Char
  token : Token

namespace Segment

/-- The characters of a segment. -/
def chars (g : Segment) : List Char := g.blanks ++ g.lexeme

/-- The segment stands where it should: blanks come first, the token has the position behind them,
and the lexeme spells it in front of `rest`. -/
structure Fits (d : Dialect) (g : Segment) (position : Nat) (rest : List Char) : Prop where
  allBlank : AllBlank g.blanks
  position_eq : g.token.position = position + g.blanks.length
  lexeme : Lexeme d g.token.kind g.lexeme rest

/-- The segments stand one behind another from a position on, and in front of `rest`. -/
def Row (d : Dialect) (position : Nat) (rest : List Char) : List Segment → Prop
  | [] => True
  | g :: gs => g.Fits d position (gs.flatMap chars ++ rest) ∧ Row d (position + g.chars.length) rest gs

section Row
variable {d : Dialect} {p : Nat} {rest : List Char} {g : Segment} {gs : List Segment}

theorem Fits.lt_position_add (h : g.Fits d p rest) : g.token.position < p + g.chars.length := by
  obtain ⟨c, cs, hlexeme, -⟩ := h.lexeme.exists_cons
  rw [h.position_eq, chars, hlexeme, List.length_append, List.length_cons]
  omega

theorem Row.fits (h : Row d p rest gs) {before after : List Segment} (hgs : gs = before ++ g :: after) :
    g.Fits d (p + (before.flatMap chars).length) (after.flatMap chars ++ rest) := by
  induction before generalizing p gs with
  | nil =>
    subst hgs
    exact h.1
  | cons g' before ih =>
    subst hgs
    have hfits := ih h.2 rfl
    rwa [Nat.add_assoc, ← List.length_append] at hfits

theorem Row.le_position (h : Row d p rest gs) (hg : g ∈ gs) : p ≤ g.token.position := by
  obtain ⟨before, after, hgs⟩ := List.append_of_mem hg
  rw [(h.fits hgs).position_eq]
  omega

theorem Row.position_lt (h : Row d p rest gs) (hg : g ∈ gs) :
    g.token.position < p + (gs.flatMap chars).length := by
  obtain ⟨before, after, rfl⟩ := List.append_of_mem hg
  have hlt := (h.fits rfl).lt_position_add
  simp only [List.flatMap_append, List.flatMap_cons, List.length_append] at hlt ⊢
  omega

/-- Positions grow from one segment to the next. -/
theorem Row.pairwise_position (h : Row d p rest gs) :
    (gs.map token).Pairwise fun t u => t.position < u.position := by
  induction gs generalizing p with
  | nil => exact .nil
  | cons g gs ih =>
    refine .cons (fun t ht => ?_) (ih h.2)
    obtain ⟨g', hg', rfl⟩ := List.mem_map.1 ht
    exact Nat.lt_of_lt_of_le h.1.lt_position_add (h.2.le_position hg')

end Row

end Segment

open Segment

/-- What a text has behind its last token, from a position on: blanks, and behind them nothing, or a
character that starts no token, or a quote that nothing closes. -/
inductive Tail (d : Dialect) (p : Nat) : List Char → Except LexicalError Nat → Prop
  | finish {blanks} : AllBlank blanks → Tail d p blanks (.ok (p + blanks.length))
  | invalidToken {blanks c cs} : AllBlank blanks → IsSymbol c → d.isOperator c = false →
      d.isDelimiter c = false →
      Tail d p (blanks ++ c :: cs) (.error (.invalidToken (p + blanks.length)))
  | unterminatedText {blanks cs} : AllBlank blanks →
      (∀ content rest, rest.head? ≠ some '"' → cs ≠ Text.Quoted.double content ++ '"' :: rest) →
      Tail d p (blanks ++ '"' :: cs) (.error (.unterminatedText (p + blanks.length)))

/-- The tokens that are cut off a text stand in a row of segments, whether an error follows or not. -/
theorem row_and_tail_of_scanAll (d : Dialect) (s : Cursor) :
    ∃ gs last, s.rest = gs.flatMap chars ++ last ∧ Row d s.position last gs ∧
      (scanAll d s).tokens = gs.map token ∧
      Tail d (s.position + (gs.flatMap chars).length) last (scanAll d s).ending := by
  fun_induction scanAll d s with
  | case1 s x s' hnext =>
    refine ⟨[], s.rest, rfl, trivial, rfl, ?_⟩
    cases hnext ▸ s.steps_next d with
    | noToken hblanks hsymbol hop hdel => exact .invalidToken hblanks hsymbol hop hdel
    | unclosedText hblanks hread =>
      refine .unterminatedText hblanks fun content rest hrest hcs => ?_
      rw [hcs, Text.Quoted.read?_written content rest hrest] at hread
      cases hread
  | case2 s t s' hnext ht =>
    refine ⟨[], s.rest, rfl, trivial, rfl, ?_⟩
    cases hnext ▸ s.steps_next d with
    | finish hblanks => exact .finish hblanks
    | token _ hlexeme => exact absurd ht hlexeme.kind_ne_endOfInput
  | case3 s t s' hnext ht run ih =>
    obtain ⟨gs, last, hrest, hrow, htokens, htail⟩ := ih
    cases hnext ▸ s.steps_next d with
    | finish => exact absurd rfl ht
    | @token p blanks lexeme rest kind hblanks hlexeme =>
      dsimp only at hrest hrow htail
      subst hrest
      -- The other segments start where the cursor stands behind this token.
      refine ⟨⟨blanks, lexeme, ⟨kind, p + blanks.length⟩⟩ :: gs, last, ?_, ?_, ?_, ?_⟩
      · simp [chars]
      · refine ⟨⟨hblanks, rfl, hlexeme⟩, ?_⟩
        simpa [chars, Nat.add_assoc] using hrow
      · exact congrArg _ htokens
      · have hend : p + blanks.length + lexeme.length + (gs.flatMap chars).length =
            p + ((blanks ++ lexeme) ++ gs.flatMap chars).length := by
          simp only [List.length_append]
          omega
        rwa [hend] at htail

/-- The tokens of a text that is cut without an error stand in a row of segments. -/
theorem row_of_scanAll {d : Dialect} {s : Cursor} {q : Nat} (h : (scanAll d s).ending = .ok q) :
    ∃ gs last, s.rest = gs.flatMap chars ++ last ∧ AllBlank last ∧ Row d s.position last gs ∧
      (scanAll d s).tokens = gs.map token ∧ q = s.position + s.rest.length := by
  obtain ⟨gs, last, hrest, hrow, htokens, htail⟩ := row_and_tail_of_scanAll d s
  rw [h] at htail
  obtain ⟨hlast⟩ := htail
  refine ⟨gs, last, hrest, hlast, hrow, htokens, ?_⟩
  rw [hrest, List.length_append, Nat.add_assoc]

/-- A text that can be cut into tokens is a row of segments and blanks behind them. The tokens are
those of the segments, with nothing left out and nothing twice, and one end of the text, and each
stands behind those before it. -/
theorem tokenize_segments {d : Dialect} {text : String} {ts : List Token}
    (h : tokenize d text = .ok ts) :
    ∃ (gs : List Segment) (last : List Char),
      text.toList = gs.flatMap chars ++ last ∧ AllBlank last ∧
      ts = gs.map token ++ [⟨.endOfInput, text.length⟩] ∧
      (∀ t ∈ gs.map token, t.kind ≠ .endOfInput) ∧
      (ts.Pairwise fun t u => t.position < u.position) ∧
      ∀ before g after, gs = before ++ g :: after →
        g.Fits d (before.flatMap chars).length (after.flatMap chars ++ last) := by
  obtain ⟨q, hend, rfl⟩ := tokenize_eq_ok.1 h
  obtain ⟨gs, last, hrest, hlast, hrow, htokens, rfl⟩ := row_of_scanAll hend
  have hlen : (Cursor.start text).position + (Cursor.start text).rest.length = text.length := by
    simp [Cursor.start, String.length_toList]
  rw [hlen, htokens]
  refine ⟨gs, last, hrest, hlast, rfl, fun t ht => ?_, ?_, fun before g after hgs => ?_⟩
  · exact kind_ne_endOfInput (htokens ▸ ht)
  · refine List.pairwise_append.2 ⟨hrow.pairwise_position, List.pairwise_singleton .., ?_⟩
    intro t ht u hu
    obtain ⟨g, hg, rfl⟩ := List.mem_map.1 ht
    cases List.mem_singleton.1 hu
    refine Nat.lt_of_lt_of_le (hrow.position_lt hg) ?_
    show _ ≤ text.length
    rw [← hlen, hrest, List.length_append]
    omega
  · simpa [Cursor.start] using hrow.fits hgs

theorem tokenize_sum_segments :
    tokenize .standard " SUM( A_1,1.5e3)+\"a\"\"b\" " = .ok [⟨.function "SUM", 1⟩,
      ⟨.delimiter '(', 4⟩, ⟨.reference "A_1", 6⟩, ⟨.delimiter ',', 9⟩, ⟨.number 1500, 10⟩,
      ⟨.delimiter ')', 15⟩, ⟨.operator '+', 16⟩, ⟨.text "a\"b", 17⟩, ⟨.endOfInput, 24⟩] ∧
    ∃ (gs : List Segment) (last : List Char),
      " SUM( A_1,1.5e3)+\"a\"\"b\" ".toList = gs.flatMap chars ++ last ∧ AllBlank last ∧
      ∀ before g after, gs = before ++ g :: after →
        g.Fits .standard (before.flatMap chars).length (after.flatMap chars ++ last) := by
  have htokens : tokenize .standard " SUM( A_1,1.5e3)+\"a\"\"b\" " = .ok [⟨.function "SUM", 1⟩,
      ⟨.delimiter '(', 4⟩, ⟨.reference "A_1", 6⟩, ⟨.delimiter ',', 9⟩, ⟨.number 1500, 10⟩,
      ⟨.delimiter ')', 15⟩, ⟨.operator '+', 16⟩, ⟨.text "a\"b", 17⟩, ⟨.endOfInput, 24⟩] := by
    decide +kernel
  obtain ⟨gs, last, htext, hlast, -, -, -, hfits⟩ := tokenize_segments htokens
  exact ⟨htokens, gs, last, htext, hlast, hfits⟩

end CellFormula
