import CellFormula.Proofs.Number.Numeral
import CellFormula.Proofs.Number.Rounding
import CellFormula.Proofs.Text.Blank
import CellFormula.Proofs.Token.Run
/-!
# Lexemes

`Lexeme d kind lexeme rest` says which pieces of a text spell a token of a kind, with a view to the
text behind them where a token must not go on. `Cursor.Steps` is all that one step of a cursor can
do, in these words, and nothing else about the scanner is needed to reason about streams of tokens.
So the content of a token is never arbitrary: numbers are finite and have no sign, and names are
words, told apart by the function names of the dialect.
-/

namespace CellFormula

open Number

/-! ## Words -/

/-- A letter and then letters, digits and underscores, all of them ASCII. -/
def isWord (word : String) : Bool :=
  match word.toList with
  | [] => false
  | c :: cs => c.isAlpha && cs.all isWordChar

namespace Dialect

/-- The word is read as a reference. -/
def isReferenceWord (d : Dialect) (word : String) : Bool :=
  isWord word && !d.isFunctionName word

/-- The word is read as the name of a function. -/
def isFunctionWord (d : Dialect) (word : String) : Bool :=
  isWord word && d.isFunctionName word

end Dialect

/-- A word starts with a letter, which is no blank. -/
theorem isBlank_eq_false_of_isWord {word : List Char} (h : isWord (String.ofList word) = true) :
    ∃ c cs, word = c :: cs ∧ Text.isBlank c = false := by
  cases word with
  | nil => cases h
  | cons c cs =>
    rw [isWord, String.toList_ofList] at h
    have hletter : c.isAlpha = true := (Bool.and_eq_true_iff.1 h).1
    exact ⟨c, cs, rfl, isBlank_eq_false_of_isAlpha hletter⟩

/-! ## Spellings -/

/-- No blank, number, word or quoted text starts with the character. -/
structure IsSymbol (c : Char) : Prop where
  not_blank : Text.isBlank c = false
  not_digit : c.isDigit = false
  not_letter : c.isAlpha = false
  not_quote : c ≠ '"'

/-- The piece of text spells a token of this kind where `rest` comes next. -/
inductive Lexeme (d : Dialect) : TokenKind → List Char → List Char → Prop
  | number {c cs numeral x rest} : c.isDigit = true → Numeral (c :: cs) numeral →
      numeral.RoundsTo x → Lexeme d (.number x) (c :: cs) rest
  | reference {word rest} : d.isReferenceWord (String.ofList word) = true →
      (∀ c ∈ rest.head?, isWordChar c = false) →
      Lexeme d (.reference (String.ofList word)) word rest
  | function {word rest} : d.isFunctionWord (String.ofList word) = true →
      (∀ c ∈ rest.head?, isWordChar c = false) →
      Lexeme d (.function (String.ofList word)) word rest
  | text {content rest} : rest.head? ≠ some '"' →
      Lexeme d (.text (String.ofList content)) (Text.Quoted.write content) rest
  | operator {c rest} : IsSymbol c → d.isOperator c = true → Lexeme d (.operator c) [c] rest
  | delimiter {c rest} : IsSymbol c → d.isOperator c = false → d.isDelimiter c = true →
      Lexeme d (.delimiter c) [c] rest

section Lexeme
variable {d : Dialect} {kind : TokenKind} {lexeme rest : List Char}

theorem Lexeme.kind_ne_endOfInput (h : Lexeme d kind lexeme rest) : kind ≠ .endOfInput := by
  cases h <;> exact TokenKind.noConfusion

/-- A lexeme is not empty and does not start with a blank. -/
theorem Lexeme.exists_cons (h : Lexeme d kind lexeme rest) :
    ∃ c cs, lexeme = c :: cs ∧ Text.isBlank c = false := by
  cases h with
  | number hc => exact ⟨_, _, rfl, isBlank_eq_false_of_isDigit hc⟩
  | reference hword => exact isBlank_eq_false_of_isWord (Bool.and_eq_true_iff.1 hword).1
  | function hword => exact isBlank_eq_false_of_isWord (Bool.and_eq_true_iff.1 hword).1
  | text => exact ⟨'"', _, rfl, by decide⟩
  | operator hc => exact ⟨_, _, rfl, hc.not_blank⟩
  | delimiter hc => exact ⟨_, _, rfl, hc.not_blank⟩

end Lexeme

/-! ## Scanning a lexeme -/

section Scanning
variable {d : Dialect} {c : Char} {cs rest : List Char} {kind : TokenKind}

theorem finiteNumeral?_of_spells {value : Decimal} (h : Spells cs value)
    (hfin : value.index < infinity) : finiteNumeral? cs = some value := by
  simp [finiteNumeral?, h.read?, Decimal.isFinite, hfin]

theorem exists_finiteNumeral?_digit (hc : c.isDigit = true) : ∃ v, finiteNumeral? [c] = some v := by
  have hspells : Spells [c] ⟨digitsValue [c], 0⟩ := .whole (by simp) (by simpa using hc)
  have hvalue : c.toNat - '0'.toNat ≤ 9 := Nat.sub_le_of_le_add (Char.isDigit_iff_toNat.1 hc).2
  have hle : (Decimal.mk (digitsValue [c]) 0).index ≤ (Decimal.mk 9 0).index :=
    index_le_index (by simpa [digitsValue] using hvalue)
  have hnine : (Decimal.mk 9 0).index < infinity := by decide +kernel
  exact ⟨_, finiteNumeral?_of_spells hspells (Nat.lt_of_le_of_lt hle hnine)⟩

theorem numberPiece_append_drop (hasExponent : Bool) (cs : List Char) :
    numberPiece hasExponent cs ++ cs.drop (numberPiece hasExponent cs).length = cs := by
  fun_cases numberPiece hasExponent cs <;> simp

/-- The number that has grown is the text up to some place, and a finite numeral. -/
theorem growNumber_lexeme {lexeme grown : List Char} {hasExponent : Bool}
    (hvalue : ∃ v, finiteNumeral? lexeme = some v)
    (h : growNumber lexeme hasExponent cs = (grown, rest)) :
    lexeme ++ cs = grown ++ rest ∧ ∃ v, finiteNumeral? grown = some v := by
  fun_induction growNumber lexeme hasExponent cs with
  | case1 =>
    cases h
    exact ⟨rfl, hvalue⟩
  | case2 =>
    cases h
    exact ⟨rfl, hvalue⟩
  | case3 lexeme hasExponent cs piece hp next hnext ih =>
    obtain ⟨htext, hgrown⟩ := ih ⟨next, hnext⟩ h
    rw [List.append_assoc, numberPiece_append_drop] at htext
    exact ⟨htext, hgrown⟩

theorem read?_of_finiteNumeral? {value : Decimal} (h : finiteNumeral? cs = some value) :
    Decimal.read? cs = some value :=
  (Option.filter_eq_some_iff.1 h).1

/-- What has been taken for a number is read as a whole. -/
theorem scanToken_digit {lexeme : List Char} {numeral : Decimal} (hc : c.isDigit = true)
    (hgrow : growNumber [c] false cs = (lexeme, rest))
    (hread : Decimal.read? lexeme = some numeral) :
    scanToken d c cs = .ok (.number (numeral.toFloat false), rest) := by
  simp only [scanToken, if_pos hc, hgrow, hread]

theorem head?_ne_quote_of_read? {content : List Char}
    (h : Text.Quoted.read? cs = some (content, rest)) : rest.head? ≠ some '"' := by
  fun_induction Text.Quoted.read? cs generalizing content with
  | case1 => cases h
  | case2 cs ih =>
    obtain ⟨⟨content, rest⟩, hread, hpair⟩ := Option.map_eq_some_iff.1 h
    cases hpair
    exact ih hread
  | case3 cs hcs =>
    cases h
    cases rest with
    | nil =>
      intro hc
      cases hc
    | cons c rest =>
      intro hc
      cases hc
      exact hcs rest rfl rfl
  | case4 c cs hcs hc ih =>
    obtain ⟨⟨content, rest⟩, hread, hpair⟩ := Option.map_eq_some_iff.1 h
    cases hpair
    exact ih hread

/-- At a digit the scanner finds a number: what it has taken is never too much to be read. -/
theorem lexeme_number (d : Dialect) (cs : List Char) (hc : c.isDigit = true) :
    ∃ (lexeme : List Char) (numeral : Decimal) (rest : List Char), c :: cs = lexeme ++ rest ∧
      Lexeme d (.number (numeral.toFloat false)) lexeme rest ∧
      scanToken d c cs = .ok (.number (numeral.toFloat false), rest) := by
  obtain ⟨lexeme, rest, hgrow⟩ : ∃ lexeme rest, growNumber [c] false cs = (lexeme, rest) :=
    ⟨_, _, rfl⟩
  obtain ⟨htext, numeral, hnumeral⟩ := growNumber_lexeme (exists_finiteNumeral?_digit hc) hgrow
  obtain ⟨hread, hfin⟩ := Option.filter_eq_some_iff.1 hnumeral
  refine ⟨lexeme, numeral, rest, htext, ?_, scanToken_digit hc hgrow hread⟩
  cases lexeme with
  | nil => cases hread
  | cons c' cs' =>
    obtain ⟨rfl, rfl⟩ := List.cons.inj htext
    exact .number hc ((read?_eq_some hc).1 hread) (roundsTo_toFloat hfin)

theorem lexeme_wordKind {word : List Char} (hword : isWord (String.ofList word) = true)
    (hend : ∀ c ∈ rest.head?, isWordChar c = false) : Lexeme d (wordKind d word) word rest := by
  unfold wordKind
  split
  · rename_i hname
    exact .function (Bool.and_eq_true_iff.2 ⟨hword, hname⟩) hend
  · rename_i hname
    exact .reference (Bool.and_eq_true_iff.2 ⟨hword, by simpa using hname⟩) hend

theorem lexeme_word (hc : c.isAlpha = true) :
    ∃ lexeme, c :: cs = lexeme ++ cs.dropWhile isWordChar ∧
      Lexeme d (wordKind d (c :: cs.takeWhile isWordChar)) lexeme (cs.dropWhile isWordChar) := by
  refine ⟨c :: cs.takeWhile isWordChar, ?_, lexeme_wordKind ?_ fun c' hc' => ?_⟩
  · rw [List.cons_append, List.takeWhile_append_dropWhile]
  · rw [isWord, String.toList_ofList]
    exact Bool.and_eq_true_iff.2 ⟨hc, List.all_takeWhile⟩
  · have hhead := List.head?_dropWhile_not isWordChar cs
    rwa [Option.mem_def.1 hc'] at hhead

/-- What the scanner can answer: a lexeme, or nothing starts with the character, or it is a quote that
nothing closes. -/
inductive Scans (d : Dialect) (c : Char) (cs : List Char) :
    Except ScanFault (TokenKind × List Char) → Prop
  | lexeme {kind lexeme rest} : c :: cs = lexeme ++ rest → Lexeme d kind lexeme rest →
      Scans d c cs (.ok (kind, rest))
  | noToken : IsSymbol c → d.isOperator c = false → d.isDelimiter c = false →
      Scans d c cs (.error .noToken)
  | unclosedText : c = '"' → Text.Quoted.read? cs = none → Scans d c cs (.error .unclosedText)

theorem scans_scanToken (hblank : Text.isBlank c = false) : Scans d c cs (scanToken d c cs) := by
  by_cases hdigit : c.isDigit = true
  · obtain ⟨lexeme, numeral, rest, htext, hlexeme, hscan⟩ := lexeme_number d cs hdigit
    rw [hscan]
    exact .lexeme htext hlexeme
  rw [scanToken, if_neg hdigit]
  split
  · rename_i hletter
    obtain ⟨lexeme, htext, hlexeme⟩ := lexeme_word hletter
    exact .lexeme htext hlexeme
  rename_i hletter
  split
  · rename_i hquote
    cases hread : Text.Quoted.read? cs with
    | none => exact .unclosedText hquote hread
    | some read =>
      refine .lexeme ?_ (@Lexeme.text d read.1 _ (head?_ne_quote_of_read? hread))
      rw [hquote, Text.Quoted.eq_written_of_read? hread]
      simp [Text.Quoted.write]
  rename_i hquote
  have hsymbol : IsSymbol c := ⟨hblank, by simpa using hdigit, by simpa using hletter, hquote⟩
  split
  · rename_i hop
    exact .lexeme rfl (.operator hsymbol hop)
  rename_i hop
  split
  · rename_i hdel
    exact .lexeme rfl (.delimiter hsymbol (by simpa using hop) hdel)
  · rename_i hdel
    exact .noToken hsymbol (by simpa using hop) (by simpa using hdel)

end Scanning

/-! ## Steps of a cursor -/

/-- What a cursor can meet behind some blanks, and where it stands afterwards: the end, a token, a
character that starts none, or a quote that nothing closes. -/
inductive Cursor.Steps (d : Dialect) : Cursor → Except LexicalError Token × Cursor → Prop
  | finish {p blanks} : AllBlank blanks →
      Steps d ⟨p, blanks⟩ (.ok ⟨.endOfInput, p + blanks.length⟩, ⟨p + blanks.length, []⟩)
  | token {p blanks lexeme rest kind} : AllBlank blanks → Lexeme d kind lexeme rest →
      Steps d ⟨p, blanks ++ lexeme ++ rest⟩
        (.ok ⟨kind, p + blanks.length⟩, ⟨p + blanks.length + lexeme.length, rest⟩)
  | noToken {p blanks c cs} : AllBlank blanks → IsSymbol c → d.isOperator c = false →
      d.isDelimiter c = false →
      Steps d ⟨p, blanks ++ c :: cs⟩
        (.error (.invalidToken (p + blanks.length)), ⟨p + blanks.length, c :: cs⟩)
  | unclosedText {p blanks cs} : AllBlank blanks → Text.Quoted.read? cs = none →
      Steps d ⟨p, blanks ++ '"' :: cs⟩
        (.error (.unterminatedText (p + blanks.length)), ⟨p + blanks.length + (cs.length + 1), []⟩)

namespace Cursor

theorem moveTo_append (p : Nat) (front rest : List Char) :
    moveTo ⟨p, front ++ rest⟩ rest = ⟨p + front.length, rest⟩ := by
  rw [moveTo, List.length_append, Nat.add_sub_cancel]

theorem skipBlanks_append {p : Nat} {blanks rest : List Char} (hblanks : AllBlank blanks)
    (hrest : ∀ c ∈ rest.head?, Text.isBlank c = false) :
    skipBlanks ⟨p, blanks ++ rest⟩ = ⟨p + blanks.length, rest⟩ := by
  rw [skipBlanks, (span_append hblanks hrest).2, moveTo_append]

theorem skipBlanks_of_not_blank {p : Nat} {c : Char} {cs : List Char}
    (hc : Text.isBlank c = false) : skipBlanks ⟨p, c :: cs⟩ = ⟨p, c :: cs⟩ :=
  @skipBlanks_append p [] (c :: cs) nofun fun _ h => by cases h; exact hc

theorem next_nil (d : Dialect) (p : Nat) : next d ⟨p, []⟩ = (.ok ⟨.endOfInput, p⟩, ⟨p, []⟩) := rfl

theorem next_blanks (d : Dialect) (p : Nat) (rest : List Char) {blanks : List Char}
    (hblanks : AllBlank blanks) : next d ⟨p, blanks ++ rest⟩ = next d ⟨p + blanks.length, rest⟩ := by
  have hlen : (rest.dropWhile Text.isBlank).length ≤ rest.length := (List.dropWhile_sublist _).length_le
  have hskip : skipBlanks ⟨p, blanks ++ rest⟩ = skipBlanks ⟨p + blanks.length, rest⟩ := by
    simp only [skipBlanks, moveTo, List.dropWhile_append_of_pos hblanks, List.length_append,
      Cursor.mk.injEq, and_true]
    omega
  rw [next, hskip, next]

theorem steps_next (d : Dialect) (s : Cursor) : s.Steps d (s.next d) := by
  obtain ⟨p, cs⟩ := s
  obtain ⟨blanks, rest, rfl, hblanks, hrest⟩ := exists_blanks cs
  rw [next, skipBlanks_append hblanks hrest]
  -- Whatever comes first behind the blanks, the position moves on by what has been read.
  cases rest with
  | nil =>
    rw [List.append_nil]
    exact .finish hblanks
  | cons c cs =>
    have hscans : Scans d c cs (scanToken d c cs) := scans_scanToken (hrest c rfl)
    dsimp only
    generalize scanToken d c cs = answer at hscans
    cases hscans with
    | @lexeme kind lexeme rest htext hlexeme =>
      dsimp only
      rw [htext, moveTo_append, ← List.append_assoc]
      exact .token hblanks hlexeme
    | noToken hsymbol hop hdel => exact .noToken hblanks hsymbol hop hdel
    | unclosedText hquote hread =>
      subst hquote
      exact .unclosedText hblanks hread

end Cursor

/-! ## Tokens of a text -/

/-- What the content of a scanned token is like. -/
def TokenKind.wellFormed (d : Dialect) : TokenKind → Bool
  | number n => n.isFinite && !isNegative n
  | reference id => d.isReferenceWord id
  | function name => d.isFunctionWord name
  | text _ | operator _ | delimiter _ => true
  | endOfInput => false

theorem Lexeme.wellFormed {d : Dialect} {kind : TokenKind} {lexeme rest : List Char}
    (h : Lexeme d kind lexeme rest) : kind.wellFormed d = true := by
  cases h with
  | number _ _ hx => simp [TokenKind.wellFormed, hx.isFinite, hx.not_negative]
  | reference hword => exact hword
  | function hword => exact hword
  | text | operator | delimiter => rfl

/-- All scanned tokens are well-formed, also those in front of an error. -/
theorem wellFormed_of_mem {d : Dialect} {s : Cursor} {t : Token} (h : t ∈ (scanAll d s).tokens) :
    t.kind.wellFormed d = true := by
  fun_induction scanAll d s with
  | case1 => cases h
  | case2 => cases h
  | case3 s t' s' hnext ht run ih =>
    rcases List.mem_cons.1 h with rfl | h
    · cases hnext ▸ s.steps_next d with
      | finish => exact absurd rfl ht
      | token _ hlexeme => exact hlexeme.wellFormed
    · exact ih h

end CellFormula
